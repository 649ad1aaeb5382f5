import Webroar.Ebb.Headers

/-! # Requests are read as they are sent

Requests that are sent one behind the other are passed on one after the other, each with its own
request line, headers and body, however the bytes are received.
-/

namespace Ebb

variable {σ : Type} {on : Callbacks σ}

namespace Parser

section

variable {request : Request} {data : σ} {rest : List UInt8}

/-! ### Headers -/

/-- What is known behind some headers, the first of which has the number of the request. -/
def afterHeaders (request : Request) : List Header → Request
  | [] => request
  | header :: headers =>
      afterHeaders { header.note request with numberOfHeaders := request.numberOfHeaders + 1 }
        headers

theorem note_number (header : Header) (request : Request) (n : Nat) :
    header.note { request with numberOfHeaders := n } =
      { header.note request with numberOfHeaders := n } := by
  unfold Header.note
  repeat' split
  all_goals rfl

theorem foldl_note_number (headers : List Header) (request : Request) (n : Nat) :
    headers.foldl Header.note { request with numberOfHeaders := n } =
      { headers.foldl Header.note request with numberOfHeaders := n } := by
  induction headers generalizing request with
  | nil => rfl
  | cons header headers ih => rw [List.foldl_cons, note_number, ih, List.foldl_cons]

theorem afterHeaders_eq (headers : List Header) (request : Request) :
    afterHeaders request headers =
      { headers.foldl Header.note request with
        numberOfHeaders := request.numberOfHeaders + headers.length } := by
  induction headers generalizing request with
  | nil => rfl
  | cons header headers ih =>
      rw [afterHeaders, ih, foldl_note_number, List.foldl_cons, List.length_cons]
      simp only [Nat.add_comm headers.length, Nat.add_assoc]

theorem resume_headers (accepting : Accepting on) (headers : List Header) {cs : State}
    {actions : List Action} {f : Request → Request} (starts : StartsHeader cs actions f)
    (rest : List UInt8) :
    (reading cs request noMarks data).resume on 0 (headers.flatMap Header.print ++ 13 :: rest) =
      (reading .headersEnd (afterHeaders (f request) headers) noMarks
        (gather on data (Header.allEvents (f request).numberOfHeaders headers))).resume on 0
          rest := by
  induction headers generalizing cs actions f request data with
  | nil =>
      have last : next cs 13 = some (actions, .headersEnd) := by
        rw [starts.reads]
        rfl
      rw [List.flatMap_nil, List.nil_append, reads_reading last (StartsHeader.performs starts ..),
        pass_reading, extend_noMarks]
      rfl
  | cons header headers ih =>
      rw [List.flatMap_cons, List.append_assoc, resume_header accepting starts, ih .later,
        note_numberOfHeaders]
      rfl

/-! ### Bodies -/

/-- A parser between two chunks, or in the size of one. -/
def sized (cs : State) (chunkSize : Nat) (request : Request) (data : σ) : Parser σ :=
  ⟨cs, chunkSize, false, some request, noMarks, data⟩

theorem walk_sized {cs after : State} {chunkSize : Nat} {text : List UInt8}
    (walks : walk cs text = some after) (rest : List UInt8) :
    (sized cs chunkSize request data).resume on 0 (text ++ rest) =
      (sized after chunkSize request data).resume on 0 rest := by
  have there : walk (sized cs chunkSize request data).cs text = some after := walks
  rw [resume_walk there]
  rfl

/-- A digit of a size. -/
theorem resume_digit {cs after : State} {c : UInt8} {chunkSize : Nat}
    (reads : next cs c = some ([.addToChunkSize], after)) (rest : List UInt8) :
    (sized cs chunkSize request data).resume on 0 (c :: rest) =
      (sized after ((chunkSize * 16 + unhex c) % 2 ^ 64) request data).resume on 0 rest := by
  have there : next (sized cs chunkSize request data).cs c = some ([.addToChunkSize], after) := reads
  have performs : [Action.addToChunkSize].foldl (perform on c rest)
      ({ sized cs chunkSize request data with cs := after }, 1) =
      (sized after ((chunkSize * 16 + unhex c) % 2 ^ 64) request data, 1) := rfl
  rw [resume_actions there performs]
  rfl

theorem hex_ne {c : UInt8} (hex : isHex c = true) : c ≠ 13 ∧ c ≠ 59 := by
  constructor
  all_goals
    intro same
    rw [same] at hex
    exact absurd hex (by decide)

theorem resume_size {digits : List UInt8} (hex : digits.all isHex = true) (chunkSize : Nat)
    (rest : List UInt8) :
    (sized .size chunkSize request data).resume on 0 (digits ++ rest) =
      (sized .size (digits.foldl (fun number c => (number * 16 + unhex c) % 2 ^ 64) chunkSize)
        request data).resume on 0 rest := by
  induction digits generalizing chunkSize with
  | nil => rfl
  | cons c digits ih =>
      rw [List.all_cons, Bool.and_eq_true] at hex
      have reads : next .size c = some ([.addToChunkSize], .size) := by
        rw [next, if_neg (hex_ne hex.1).1, if_pos hex.1]
      rw [List.cons_append, resume_digit reads, ih hex.2, List.foldl_cons]

/-- Where the zeros before a size may be. -/
theorem zeros_reads {cs : State} (zeros : cs = .chunkStart ∨ cs = .zeros) {c : UInt8}
    (hex : isHex c = true) :
    next cs c = some ([.addToChunkSize], if c = 48 then .zeros else .size) := by
  obtain rfl | rfl := zeros
  · by_cases zero : c = 48
    · rw [next, if_pos zero, if_pos zero]
    · rw [next, if_neg zero, if_neg zero, if_pos hex]
  · by_cases zero : c = 48
    · rw [next, if_neg (hex_ne hex).1, if_pos zero, if_pos zero]
    · rw [next, if_neg (hex_ne hex).1, if_neg zero, if_neg zero, if_pos hex]

/-- The size of a chunk that has data. -/
theorem resume_digits_size {cs : State} (zeros : cs = .chunkStart ∨ cs = .zeros)
    {digits : List UInt8} (hex : digits.all isHex = true)
    (positive : hexNumber digits ≠ 0) (rest : List UInt8) :
    (sized cs 0 request data).resume on 0 (digits ++ rest) =
      (sized .size (digits.foldl (fun number c => (number * 16 + unhex c) % 2 ^ 64) 0)
        request data).resume on 0 rest := by
  induction digits generalizing cs with
  | nil => exact absurd rfl positive
  | cons c digits ih =>
      rw [List.all_cons, Bool.and_eq_true] at hex
      have reads := zeros_reads zeros hex.1
      rw [List.cons_append, resume_digit reads, List.foldl_cons]
      by_cases zero : c = 48
      · rw [if_pos zero, zero]
        apply ih (.inr rfl) hex.2
        rw [zero] at positive
        exact positive
      · rw [if_neg zero, resume_size hex.2]

theorem foldl_mod (digits : List UInt8) (number : Nat) :
    digits.foldl (fun number c => (number * 16 + unhex c) % 2 ^ 64) (number % 2 ^ 64) =
      digits.foldl (fun number c => number * 16 + unhex c) number % 2 ^ 64 := by
  induction digits generalizing number with
  | nil => rfl
  | cons c digits ih =>
      rw [List.foldl_cons, List.foldl_cons, ← ih]
      congr 1
      omega

/-- Bytes of a body that are all of it, or all of a chunk. -/
theorem skipBody_all (accepting : Accepting on) (cs : State) (text : List UInt8) (some : text ≠ []) :
    (sized cs text.length request data).skipBody on text =
      if request.transferEncoding = .identity then
        { init (gather on data [.body text, .complete]) with cs := cs }
      else sized cs 0 { request with bodyRead := request.bodyRead + text.length }
        (on data (.body text)).1 := by
  by_cases identity : request.transferEncoding = .identity
  · simp [skipBody, call, setRequest, endRequest, sized, some, accepting _ _, identity, gather,
      init]
    rfl
  · simp [skipBody, call, setRequest, sized, some, accepting _ _, identity]

theorem skipBody_none (accepting : Accepting on) (cs : State)
    (identity : request.transferEncoding = .identity) :
    (sized cs 0 request data).skipBody on [] =
      { init (on data .complete).1 with cs := cs } := by
  simp [skipBody, call, setRequest, endRequest, sized, accepting _ _, identity, init]
  rfl

/-- A chunk with its data. -/
theorem resume_chunk (accepting : Accepting on) (chunk : Chunk)
    (chunked : request.transferEncoding = .chunked) (rest : List UInt8) :
    (sized .chunkStart 0 request data).resume on 0 (chunk.print ++ rest) =
      (sized .chunkStart 0 { request with bodyRead := request.bodyRead + chunk.text.length }
        (on data (.body chunk.text)).1).resume on 0 rest := by
  have positive : hexNumber chunk.digits ≠ 0 := by
    rw [chunk.size]
    exact fun zero => chunk.nonempty (List.eq_nil_of_length_eq_zero zero)
  have size : chunk.digits.foldl (fun number c => (number * 16 + unhex c) % 2 ^ 64) 0 =
      chunk.text.length := by
    have whole := foldl_mod chunk.digits 0
    rw [Nat.zero_mod] at whole
    rw [whole]
    exact (congrArg (· % 2 ^ 64) chunk.size).trans (Nat.mod_eq_of_lt chunk.short)
  have line : walk .size Header.crlf = some .data := rfl
  have line' : walk .dataEnd Header.crlf = some .chunkStart := rfl
  have other : request.transferEncoding ≠ .identity := by
    rw [chunked]
    exact nofun
  have skips := @skipBody_all σ on request data accepting .dataEnd chunk.text chunk.nonempty
  rw [if_neg other] at skips
  rw [Chunk.print, List.append_assoc, List.append_assoc, List.append_assoc,
    resume_digits_size (.inl rfl) chunk.hex positive, size, walk_sized line]
  obtain ⟨c, text, parts⟩ := List.exists_cons_of_ne_nil chunk.nonempty
  have transition : (sized .data chunk.text.length request data).transition on c
      (text ++ (Header.crlf ++ rest)) =
      (sized .dataEnd 0 { request with bodyRead := request.bodyRead + chunk.text.length }
        (on data (.body chunk.text)).1, text.length + 1) := by
    have taken : (c :: (text ++ (Header.crlf ++ rest))).take chunk.text.length = chunk.text := by
      rw [parts, ← List.cons_append, List.take_left]
    rw [Parser.transition]
    dsimp only [sized, next, List.foldl_cons, List.foldl_nil, perform]
    rw [taken]
    exact Prod.ext skips (congrArg List.length parts)
  have none : Marked (sized State.dataEnd 0
      { request with bodyRead := request.bodyRead + chunk.text.length }
      (on data (.body chunk.text)).1).marks [] :=
    fun _ => iff_of_false Bool.false_ne_true List.not_mem_nil
  rw [parts] at transition none ⊢
  rw [List.cons_append, resume_some transition, pass_of_none none, resume_skip none,
    List.drop_left, walk_sized line']

/-- The chunks of a body. -/
theorem resume_chunks (accepting : Accepting on) (chunks : List Chunk)
    (chunked : request.transferEncoding = .chunked) (rest : List UInt8) :
    ∃ bodyRead, (sized .chunkStart 0 request data).resume on 0
        (chunks.flatMap Chunk.print ++ rest) =
      (sized .chunkStart 0 { request with bodyRead := bodyRead }
        (gather on data (chunks.map fun chunk => .body chunk.text))).resume on 0 rest := by
  induction chunks generalizing request data with
  | nil => exact ⟨request.bodyRead, rfl⟩
  | cons chunk chunks ih =>
      rw [List.flatMap_cons, List.append_assoc, resume_chunk accepting chunk chunked]
      exact ih chunked

/-- The last chunk, which is zero. -/
theorem resume_last (accepting : Accepting on) (zeros : Nat) (rest : List UInt8) :
    (sized .chunkStart 0 request data).resume on 0
        (List.replicate (zeros + 1) 48 ++ (Header.crlf ++ (Header.crlf ++ rest))) =
      (init (on data .complete).1).resume on 0 rest := by
  have more : ∀ (n : Nat) (cs : State), cs = .chunkStart ∨ cs = .zeros → ∀ tail,
      (sized cs 0 request data).resume on 0 (List.replicate (n + 1) 48 ++ tail) =
        (sized .zeros 0 request data).resume on 0 tail := by
    intro n
    induction n with
    | zero =>
        intro cs start tail
        exact resume_digit (zeros_reads start rfl) tail
    | succ n ih =>
        intro cs start tail
        rw [List.replicate_succ, List.cons_append, resume_digit (zeros_reads start rfl)]
        exact ih .zeros (.inr rfl) tail
  have lines : walk .zeros (Header.crlf ++ [13]) = some .bodyEnd := rfl
  have last : next .bodyEnd 10 = some ([.endChunkedBody], .ready) := rfl
  have parts : Header.crlf ++ (Header.crlf ++ rest) = (Header.crlf ++ [13]) ++ 10 :: rest := rfl
  have performs : [Action.endChunkedBody].foldl (perform on 10 rest)
      ({ sized .bodyEnd 0 request data with cs := .ready }, 1) =
      (init (on data .complete).1, 1) := by
    simp only [List.foldl_cons, List.foldl_nil, perform, endRequest, call, sized, accepting _ _,
      ↓reduceIte]
    rfl
  rw [more zeros .chunkStart (.inl rfl), parts, walk_sized lines]
  have there : next (sized .bodyEnd 0 request data).cs 10 = some ([.endChunkedBody], .ready) := last
  rw [resume_actions there performs]
  rfl

theorem headersComplete_performs (accepting : Accepting on) (c : UInt8) (rest : List UInt8) :
    perform on c rest (reading .ready request noMarks data, 1) .endHeaders =
      (reading .ready request noMarks (on data (.headersComplete request)).1, 1) := by
  rw [perform, call_reading accepting]

/-- A body that is announced by its length. -/
theorem resume_plain (accepting : Accepting on) {text : List UInt8}
    (announced : (Body.plain text).Announced request) (rest : List UInt8) :
    (reading .headersEnd request noMarks data).resume on 0 (10 :: (text ++ rest)) =
      (init (gather on data (.headersComplete request ::
        ((Body.plain text).events ++ [.complete])))).resume on 0 rest := by
  obtain ⟨identity, length⟩ := announced
  have reads : next .headersEnd 10 = some ([.endHeaders, .bodyLogic], .ready) := rfl
  have transition : (reading .headersEnd request noMarks data).transition on 10 (text ++ rest) =
      ((sized .ready text.length request (on data (.headersComplete request)).1).skipBody on text,
        text.length + 1) := by
    have there : next (reading State.headersEnd request noMarks data).cs 10 =
        some ([.endHeaders, .bodyLogic], .ready) := reads
    have ready : ({ reading .headersEnd request noMarks data with cs := .ready } : Parser σ) =
        reading .ready request noMarks data := rfl
    rw [Parser.transition, there]
    dsimp only
    rw [ready, List.foldl_cons, headersComplete_performs accepting, List.foldl_cons, List.foldl_nil]
    simp only [perform, reading, identity, ← length, List.take_left, Nat.add_comm 1]
    rfl
  have after : (sized .ready text.length request (on data (.headersComplete request)).1).skipBody
      on text = init (gather on data (.headersComplete request ::
        ((Body.plain text).events ++ [.complete]))) := by
    by_cases none : text = []
    · rw [none]
      exact skipBody_none accepting .ready identity
    · have events : (Body.plain text).events = [.body text] := if_neg none
      rw [skipBody_all accepting .ready text none, if_pos identity, events]
      rfl
  rw [after] at transition
  have marked : Marked (init (gather on data (.headersComplete request ::
      ((Body.plain text).events ++ [.complete])))).marks [] :=
    fun _ => iff_of_false Bool.false_ne_true List.not_mem_nil
  rw [resume_some transition, pass_of_none marked, resume_skip marked, List.drop_left]

/-- A body that comes in chunks. -/
theorem resume_chunked (accepting : Accepting on) (chunks : List Chunk) (zeros : Nat)
    (chunked : request.transferEncoding = .chunked) (rest : List UInt8) :
    (reading .headersEnd request noMarks data).resume on 0
        (10 :: ((Body.chunked chunks zeros).print ++ rest)) =
      (init (gather on data (.headersComplete request ::
        ((Body.chunked chunks zeros).events ++ [.complete])))).resume on 0 rest := by
  have reads : next .headersEnd 10 = some ([.endHeaders, .bodyLogic], .ready) := rfl
  have performs : [Action.endHeaders, .bodyLogic].foldl
      (perform on 10 ((Body.chunked chunks zeros).print ++ rest))
      (reading .ready request noMarks data, 1) =
      (sized .chunkStart 0 request (on data (.headersComplete request)).1, 1) := by
    rw [List.foldl_cons, headersComplete_performs accepting, List.foldl_cons, List.foldl_nil]
    simp only [perform, reading, chunked]
    rfl
  have marked : Marked (sized State.chunkStart 0 request
      (on data (.headersComplete request)).1).marks [] :=
    fun _ => iff_of_false Bool.false_ne_true List.not_mem_nil
  have parts : (Body.chunked chunks zeros).print ++ rest = chunks.flatMap Chunk.print ++
      (List.replicate (zeros + 1) 48 ++ (Header.crlf ++ (Header.crlf ++ rest))) := by
    rw [Body.print, List.append_assoc, List.append_assoc, List.append_assoc]
  obtain ⟨bodyRead, read⟩ := @resume_chunks σ on request (on data (.headersComplete request)).1
    accepting chunks chunked
    (List.replicate (zeros + 1) 48 ++ (Header.crlf ++ (Header.crlf ++ rest)))
  rw [reads_reading reads performs, pass_of_none marked, parts, read, resume_last accepting]
  rw [← List.cons_append, gather_append]
  rfl

theorem resume_body (accepting : Accepting on) {body : Body} (announced : body.Announced request)
    (rest : List UInt8) :
    (reading .headersEnd request noMarks data).resume on 0 (10 :: (body.print ++ rest)) =
      (init (gather on data (.headersComplete request ::
        (body.events ++ [.complete])))).resume on 0 rest := by
  cases body with
  | plain text => exact resume_plain accepting announced rest
  | chunked chunks zeros => exact resume_chunked accepting chunks zeros announced rest

end

/-! ### Requests -/

variable {data : σ}

/-- A request, up to the version. -/
theorem resume_uri (accepting : Accepting on) (message : Message) (rest : List UInt8) :
    (init data).resume on 0 (word message.method ++ 32 :: (message.target.uri ++
        ((message.fragment.map fun fragment => 35 :: fragment.1).getD [] ++ 32 :: rest))) =
      (reading (.http 0) { Request.init with method := some message.method } noMarks
        (gather on data (.newRequest :: (message.target.events ++
          (message.fragment.map fun fragment =>
            .piece .fragment fragment.1 0).toList)))).resume on 0 rest := by
  rw [resume_method accepting]
  cases message.fragment with
  | none =>
      rw [Option.map_none, Option.getD_none, List.nil_append,
        resume_target accepting .space message.target _ rfl, Option.map_none, Option.toList_none,
        List.append_nil]
      rfl
  | some fragment =>
      rw [Option.map_some, Option.getD_some, List.cons_append,
        resume_target accepting .mark message.target _ rfl, resume_fragment accepting,
        Option.map_some, Option.toList_some]
      congr 1
      rw [← List.cons_append, gather_append]
      rfl

/-- A request that is received in one piece. -/
theorem resume_message (accepting : Accepting on) (message : Message) (rest : List UInt8) :
    (init data).resume on 0 (message.print ++ rest) =
      (init (gather on data message.events)).resume on 0 rest := by
  have parts : message.print ++ rest = word message.method ++ 32 :: (message.target.uri ++
      ((message.fragment.map fun fragment => 35 :: fragment.1).getD [] ++ 32 ::
        (Message.httpText ++ (message.major.1 ++ 46 :: (message.minor.1 ++ (Header.crlf ++
          (message.headers.flatMap Header.print ++ 13 :: (10 :: (message.body.print ++
            rest))))))))) := by
    simp only [Message.print, Message.printVersion, Header.crlf, List.append_assoc,
      List.cons_append, List.nil_append]
  have known : afterHeaders { Request.init with
        method := some message.method
        versionMajor := message.major.number 32
        versionMinor := message.minor.number 32 } message.headers = message.request := by
    rw [afterHeaders_eq, Message.request, requestOf]
    simp only [Request.init, Nat.zero_add]
  have first := @resume_headers σ on { Request.init with
      method := some message.method
      versionMajor := message.major.number 32
      versionMinor := message.minor.number 32 }
    (gather on data (.newRequest :: (message.target.events ++
      (message.fragment.map fun fragment => .piece .fragment fragment.1 0).toList)))
    accepting message.headers .headers [] id .first (10 :: (message.body.print ++ rest))
  rw [id, known] at first
  rw [parts, resume_uri accepting, resume_version]
  refine first.trans ?_
  have announced : message.body.Announced message.request := message.announced
  rw [resume_body accepting announced, ← gather_append, ← gather_append, Message.events]
  simp only [List.cons_append, List.append_assoc]
  rfl

theorem resume_messages (accepting : Accepting on) (messages : List Message) :
    (init data).resume on 0 (messages.flatMap Message.print) =
      init (gather on data (messages.flatMap Message.events)) := by
  induction messages generalizing data with
  | nil => rfl
  | cons message messages ih =>
      rw [List.flatMap_cons, resume_message accepting, ih, List.flatMap_cons, gather_append]

/-- A parser without marks that is the same apart from them. -/
theorem eq_init_of_restart {parser : Parser σ} (same : parser.restart [] = init data) :
    parser = init data := by
  obtain ⟨cs, chunkSize, eating, currentRequest, marks, data'⟩ := parser
  simp only [restart, init, Parser.mk.injEq] at same ⊢
  obtain ⟨rfl, rfl, rfl, rfl, marked, rfl⟩ := same
  refine ⟨rfl, rfl, rfl, rfl, ?_, rfl⟩
  funext element
  exact Option.map_eq_none_iff.mp (congrFun marked element)

/-- Requests that are sent one behind the other are gathered one after the other. -/
theorem restart_receive (seamless : Seamless on) (accepting : Accepting on) (data : σ)
    (messages : List Message) {buffers : List (List UInt8)}
    (sent : buffers.flatten = messages.flatMap Message.print) :
    ((init data).receive on buffers).restart [] =
      init (gather on data (messages.flatMap Message.events)) := by
  rw [(sane_init data).receive seamless, sent, execute_reads rfl]
  have fresh : (init data).restart [] = init data := rfl
  rw [fresh, resume_messages accepting]
  rfl

/-- Requests that are sent one behind the other, in whatever buffers they are received: the parser
is as new, and the callbacks have gathered what they make of the requests one after the other. -/
theorem receive_messages (seamless : Seamless on) (accepting : Accepting on) (data : σ)
    (messages : List Message) {buffers : List (List UInt8)}
    (sent : buffers.flatten = messages.flatMap Message.print) :
    (init data).receive on buffers = init (gather on data (messages.flatMap Message.events)) :=
  eq_init_of_restart (restart_receive seamless accepting data messages sent)

/-- A request with a body of two bytes and one with the same body in a chunk, in three buffers. -/
theorem receive_messages_keep :
    ∃ first second : Message,
      (init []).receive keep
          [ascii "PUT /a?b HTTP/1.1\r\nContent-Length:  2\r\n\r\nh",
            ascii "iPOST * HTTP/1.0\r\nTransfer-Encoding:",
            ascii "chunked\r\n\r\n02\r\nhi\r\n0\r\n\r\n"] =
        init (gather keep [] ([first, second].flatMap Message.events)) :=
  let first : Message := {
    method := .put
    target := .origin ⟨ascii "a", by decide⟩ (some ⟨ascii "b", by decide⟩)
    fragment := none
    major := ⟨ascii "1", by decide⟩
    minor := ⟨ascii "1", by decide⟩
    headers := [{
      name := ⟨ascii "Content-Length", by decide +kernel⟩
      named := by decide
      blanks := 2
      value := ⟨ascii "2", by decide⟩
      begins := by decide }]
    body := .plain (ascii "hi")
    announced := ⟨by decide, by decide⟩ }
  let second : Message := {
    method := .post
    target := .asterisk
    fragment := none
    major := ⟨ascii "1", by decide⟩
    minor := ⟨ascii "0", by decide⟩
    headers := [{
      name := ⟨ascii "Transfer-Encoding", by decide +kernel⟩
      named := by decide
      blanks := 0
      value := ⟨ascii "chunked", by decide⟩
      begins := by decide }]
    body := .chunked [{
      digits := ascii "02"
      hex := by decide
      text := ascii "hi"
      nonempty := by decide
      size := by decide
      short := by decide }] 0
    announced := rfl }
  ⟨first, second, receive_messages seamless_keep keep_accepts [] [first, second] (by decide)⟩

end Parser

end Ebb
