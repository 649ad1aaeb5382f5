import Webroar.Ebb.Served
import Webroar.Head.Chunking
import Webroar.Ebb.Settled

/-! # What is kept of a request

Requests that leave the same behind when the pieces of their texts are put together come out the
same in the head, as long as their headers stay within the limits however they are cut.
-/

open Request (Callback LinePiece ClientHeader Incoming Accepted begun headerCallbacks)
open Scgi (frame scgiEntry encode startOffsetInit)

namespace Ebb

theorem Calls.split {events : List Event} {first second : List Callback}
    (calls : Calls events (first ++ second)) :
    ∃ before after, events = before ++ after ∧ Calls before first ∧ Calls after second :=
  ⟨events.take first.length, events.drop first.length, (List.take_append_drop _ _).symm,
    List.forall₂_take_append events first second calls,
    List.forall₂_drop_append events first second calls⟩

theorem Calls.append {before after : List Event} {first second : List Callback}
    (calls : Calls before first) (calls' : Calls after second) :
    Calls (before ++ after) (first ++ second) :=
  List.rel_append calls calls'

namespace Kept

/-- What some callbacks leave. -/
abbrev notes (kept : Kept) (events : List Event) : Kept := events.foldl note kept

/-- A piece of the request line. -/
def line (kept : Kept) : LinePiece → Kept
  | .path length => { kept with path := kept.path + length }
  | .queryString length => { kept with queryString := kept.queryString + length }
  | .uri text => { kept with uri := kept.uri ++ text.1 }
  | .fragment text => { kept with fragment := some (kept.fragment.getD [] ++ text.1) }

variable {headers : List (List UInt8 × List UInt8)} {name value : List UInt8}

/-- The request line is within the limits. -/
structure Short (kept : Kept) : Prop where
  path : kept.path ≤ Config.maxPathSize
  queryString : kept.queryString ≤ Config.maxQuerySize
  uri : kept.uri.length ≤ Config.maxUriSize
  fragment : (kept.fragment.getD []).length ≤ Config.maxFragSize

theorem short_init : init.Short :=
  ⟨Nat.zero_le _, Nat.zero_le _, Nat.zero_le _, Nat.zero_le _⟩

/-- A piece of the request line does not make it shorter. -/
theorem Short.before {kept : Kept} {piece : LinePiece} (short : (kept.line piece).Short) :
    kept.Short := by
  obtain ⟨path, query, uri, fragment⟩ := short
  cases piece with
  | path length => exact ⟨Nat.le_trans (Nat.le_add_right _ _) path, query, uri, fragment⟩
  | queryString length => exact ⟨path, Nat.le_trans (Nat.le_add_right _ _) query, uri, fragment⟩
  | uri text =>
      rw [line, List.length_append] at uri
      exact ⟨path, query, Nat.le_trans (Nat.le_add_right _ _) uri, fragment⟩
  | fragment text =>
      rw [line, Option.getD_some, List.length_append] at fragment
      exact ⟨path, query, uri, Nat.le_trans (Nat.le_add_right _ _) fragment⟩

end Kept

/-- A request of the head knows the request line that is kept, and nothing else yet. -/
structure Knows (head : Head) (req : TakenRequest) (kept : Kept) : Prop where
  path : req.line.path = ⟨none, kept.path⟩
  query : req.line.query = ⟨none, kept.queryString⟩
  uri : req.line.uri.1 = kept.uri
  uriLen : req.line.uriLen = kept.uri.length
  fragment : req.line.fragment.map Subtype.val = kept.fragment
  scgi : req.scgi = Scgi.new head.junk
  file : req.uploadFile = none
  rejected : req.rejected = none

namespace Knows

variable {head : Head} {req req' : TakenRequest} {kept : Kept}

theorem eq (knows : Knows head req kept) (knows' : Knows head req' kept) : req = req' := by
  obtain ⟨⟨uri, uriLen, path, query, fragment⟩, scgi, file, rejected⟩ := req
  obtain ⟨⟨uri', uriLen', path', query', fragment'⟩, scgi', file', rejected'⟩ := req'
  obtain ⟨rfl, rfl, same, rfl, fragments, rfl, rfl, rfl⟩ := knows
  obtain ⟨rfl, rfl, same', length, fragments', rfl, rfl, rfl⟩ := knows'
  have uris : uri = uri' := Subtype.ext (same.trans same'.symm)
  have texts : fragment = fragment' :=
    Option.map_injective Subtype.val_injective (fragments.trans fragments'.symm)
  dsimp only at length
  rw [uris, texts, length]

theorem init (head : Head) : Knows head (Request.new head) .init :=
  ⟨rfl, rfl, rfl, rfl, rfl, rfl, rfl, rfl⟩

theorem fragmentLength (knows : Knows head req kept) :
    (req.line.fragment.map fun old => old.1.length).getD 0 = (kept.fragment.getD []).length := by
  rw [← knows.fragment]
  cases req.line.fragment <;> rfl

/-- A piece that keeps the line within the limits is taken down. -/
theorem lineCb (knows : Knows head req kept) {piece : LinePiece} (short : (kept.line piece).Short) :
    Knows head (req.lineCb piece) (kept.line piece) := by
  cases piece with
  | path length =>
      have fits : ¬ Config.maxPathSize < kept.path + length := Nat.not_lt_of_le short.path
      simp only [Request.lineCb, Request.pathCb, knows.path, if_neg fits]
      exact ⟨rfl, knows.query, knows.uri, knows.uriLen, knows.fragment, knows.scgi, knows.file,
        knows.rejected⟩
  | queryString length =>
      have fits : ¬ Config.maxQuerySize < kept.queryString + length :=
        Nat.not_lt_of_le short.queryString
      simp only [Request.lineCb, Request.queryStringCb, knows.query, if_neg fits]
      exact ⟨knows.path, rfl, knows.uri, knows.uriLen, knows.fragment, knows.scgi, knows.file,
        knows.rejected⟩
  | uri text =>
      have fits : ¬ Config.maxUriSize < kept.uri.length + text.1.length := by
        rw [← List.length_append]
        exact Nat.not_lt_of_le short.uri
      simp only [Request.lineCb, Request.uriCb, knows.uriLen, if_neg fits]
      exact ⟨knows.path, knows.query, congrArg (· ++ text.1) knows.uri,
        (List.length_append ..).symm, knows.fragment, knows.scgi, knows.file, knows.rejected⟩
  | fragment text =>
      have fits : ¬ Config.maxFragSize < (kept.fragment.getD []).length + text.1.length := by
        rw [← List.length_append]
        exact Nat.not_lt_of_le short.fragment
      simp only [Request.lineCb, Request.fragmentCb, knows.fragmentLength, if_neg fits]
      refine ⟨knows.path, knows.query, knows.uri, knows.uriLen, ?_, knows.scgi, knows.file,
        knows.rejected⟩
      rw [Kept.line, ← knows.fragment]
      cases req.line.fragment <;> rfl

/-- A piece with which the line is too long is rejected. -/
theorem lineCb_long (knows : Knows head req kept) (short : kept.Short) {piece : LinePiece}
    (long : ¬ (kept.line piece).Short) : (req.lineCb piece).rejected.isSome = true := by
  obtain ⟨path, query, uri, fragment⟩ := short
  cases piece with
  | path length =>
      have exceeds : Config.maxPathSize < kept.path + length := by
        by_contra fits
        exact long ⟨Nat.le_of_not_lt fits, query, uri, fragment⟩
      simp only [Request.lineCb, Request.pathCb, knows.path, if_pos exceeds]
      rfl
  | queryString length =>
      have exceeds : Config.maxQuerySize < kept.queryString + length := by
        by_contra fits
        exact long ⟨path, Nat.le_of_not_lt fits, uri, fragment⟩
      simp only [Request.lineCb, Request.queryStringCb, knows.query, if_pos exceeds]
      rfl
  | uri text =>
      have exceeds : Config.maxUriSize < kept.uri.length + text.1.length := by
        by_contra fits
        refine long ⟨path, query, ?_, fragment⟩
        rw [Kept.line, List.length_append]
        exact Nat.le_of_not_lt fits
      simp only [Request.lineCb, Request.uriCb, knows.uriLen, if_pos exceeds]
      rfl
  | fragment text =>
      have exceeds : Config.maxFragSize < (kept.fragment.getD []).length + text.1.length := by
        by_contra fits
        refine long ⟨path, query, uri, ?_⟩
        rw [Kept.line, Option.getD_some, List.length_append]
        exact Nat.le_of_not_lt fits
      simp only [Request.lineCb, Request.fragmentCb, knows.fragmentLength, if_pos exceeds]
      rfl

end Knows

/-- The head knows the request line just when it is within the limits, and rejects it otherwise. -/
theorem begun_knows (head : Head) (pieces : List LinePiece) :
    ((pieces.foldl Kept.line .init).Short →
      Knows head (begun head pieces) (pieces.foldl Kept.line .init)) ∧
    (¬ (pieces.foldl Kept.line .init).Short → (begun head pieces).rejected.isSome = true) := by
  induction pieces using List.reverseRecOn with
  | nil => exact ⟨fun _ => .init head, fun long => absurd Kept.short_init long⟩
  | append_singleton pieces piece ih =>
      have step : begun head (pieces ++ [piece]) =
          if (begun head pieces).rejected.isSome then begun head pieces
          else (begun head pieces).lineCb piece := by
        rw [begun, List.foldl_append]
        rfl
      rw [List.foldl_append, List.foldl_cons, List.foldl_nil, step]
      constructor
      · intro short
        have knows := ih.1 short.before
        rw [if_neg (by rw [knows.rejected]; exact Bool.false_ne_true)]
        exact knows.lineCb short
      · intro long
        by_cases short : (pieces.foldl Kept.line .init).Short
        · have knows := ih.1 short
          rw [if_neg (by rw [knows.rejected]; exact Bool.false_ne_true)]
          exact knows.lineCb_long short long
        · rw [if_pos (ih.2 short)]
          exact ih.2 short

/-- The same line in other pieces leaves the same request. -/
theorem begun_eq {head : Head} {first second : List LinePiece}
    (same : first.foldl Kept.line .init = second.foldl Kept.line .init)
    (kept : (begun head first).rejected = none) : begun head second = begun head first := by
  by_cases short : (first.foldl Kept.line .init).Short
  · have knows := (begun_knows head second).1 (same ▸ short)
    rw [← same] at knows
    exact knows.eq ((begun_knows head first).1 short)
  · have rejected := (begun_knows head first).2 short
    rw [kept] at rejected
    cases rejected

/-! ### Requests that leave the same behind -/

/-- Requests that are the same when the pieces of their texts are put together. -/
structure Matches (first second : Incoming) : Prop where
  line : first.line.foldl Kept.line .init = second.line.foldl Kept.line .init
  headers : first.headers.map ClientHeader.text = second.headers.map ClientHeader.text
  request : first.request = second.request
  body : first.body.flatten = second.body.flatten

theorem Tells.eq {request : Request} {ebb ebb' : EbbRequest} (tells : Tells request ebb)
    (tells' : Tells request ebb') : ebb = ebb' := by
  obtain ⟨method, coding, major, minor, length⟩ := ebb
  obtain ⟨method', coding', major', minor', length'⟩ := ebb'
  have known : method = method' := Option.some.inj (tells.method.symm.trans tells'.method)
  have first : coding = coding' := tells.transferEncoding.symm.trans tells'.transferEncoding
  have second : major = major' := tells.versionMajor.symm.trans tells'.versionMajor
  have third : minor = minor' := tells.versionMinor.symm.trans tells'.versionMinor
  have fourth : length = length' := tells.contentLength.symm.trans tells'.contentLength
  rw [known, first, second, third, fourth]

namespace Matches

variable {head : Head} {first second : Incoming} {req : TakenRequest}

theorem clientEntries (same : Matches first second) :
    first.clientEntries = second.clientEntries := by
  have entries (headers : List ClientHeader) : headers.map ClientHeader.entry =
      (headers.map ClientHeader.text).map fun text =>
        ((Request.httpPrefix ++ text.1).map Scgi.envByte, text.2) := by
    rw [List.map_map]
    exact List.map_congr_left fun header _ => header.entry_eq
  rw [Incoming.clientEntries, Incoming.clientEntries, entries, entries, same.headers]

end Matches

/-- The line of a request that has begun well is that of all its pieces. -/
theorem requestLine_eq {head : Head} {incoming : Incoming}
    (kept : (begun head incoming.line).rejected = none) :
    incoming.requestLine head = (begun head incoming.line).line := by
  have ran := (@Request.run_pieces head incoming.line).1
  rw [← List.append_nil (incoming.line.map Callback.line)] at ran
  obtain ⟨next, ended, line, -⟩ := Request.run_line ran kept
  obtain rfl := Option.some.inj ended
  exact line.symm

theorem outcome_eq {head : Head} {incoming : Incoming} {req : TakenRequest}
    (accepted : Accepted head incoming req) :
    incoming.outcome head =
      some (.taken req.scgi.block (req.scgi.body.getD []) req.uploadFile) := by
  rw [Incoming.outcome, accepted.ran, Option.map_some, Request.outcome, accepted.kept]

/-- An accepted request has begun well, and its headers fit. -/
theorem begins_of_accepted {head : Head} {incoming : Incoming} {req : TakenRequest}
    (accepted : Accepted head incoming req) :
    (begun head incoming.line).rejected = none ∧ incoming.Fit := by
  have taken := outcome_eq accepted
  have kept : (begun head incoming.line).rejected = none := by
    cases rejected : (begun head incoming.line).rejected with
    | none => rfl
    | some rejection =>
        rw [Incoming.outcome_of_line rejected] at taken
        cases taken
  refine ⟨kept, ?_⟩
  by_contra long
  rw [Incoming.outcome_of_not_fit kept long] at taken
  cases taken

namespace Matches

variable {head : Head} {first second : Incoming} {req : TakenRequest}

/-- Headers that are short enough fit however they are cut. -/
theorem fit (same : Matches first second) (fit : first.Fit)
    (room : startOffsetInit + (encode (scgiEntry :: first.clientEntries)).length ≤
      Config.maxHeaderSize) : second.Fit := by
  have lengths : first.headers.length = second.headers.length := by
    simpa using congrArg List.length same.headers
  by_cases empty : second.headers = []
  · rw [Incoming.Fit, empty]
    trivial
  · have some : first.headers ≠ [] := by
      intro none
      rw [none] at lengths
      exact empty (List.eq_nil_of_length_eq_zero lengths.symm)
    obtain ⟨count, short, -⟩ := (Incoming.fit_iff some).mp fit
    refine (Incoming.fit_iff empty).mpr ⟨lengths ▸ count, same.clientEntries ▸ short, ?_⟩
    rw [← same.clientEntries]
    exact Nat.le_trans room (Nat.le_add_right _ _)

/-- A request whose headers are short enough is accepted however its texts are cut. -/
theorem accepted (same : Matches first second) (accepted : Accepted head first req)
    (room : startOffsetInit + (encode (scgiEntry :: first.clientEntries)).length ≤
      Config.maxHeaderSize) : ∃ last, Accepted head second last := by
  obtain ⟨kept, fit⟩ := begins_of_accepted accepted
  have line := begun_eq same.line kept
  obtain ⟨scgi, layout, ran⟩ := Incoming.run_of_fit kept fit
  obtain ⟨scgi', layout', ran'⟩ := Incoming.run_of_fit (by rw [line]; exact kept) (same.fit fit room)
  rw [← same.clientEntries] at layout'
  have listening : ¬ (begun head first.line).rejected.isSome = true := by
    rw [kept]
    exact Bool.false_ne_true
  have rejections := Request.headersCompleteCb_alike head (begun head first.line) first.request
    layout layout'
  rw [Incoming.lastCallbacks, Request.run_cons, Request.step, if_neg listening,
    accepted.ran] at ran
  rw [line, Incoming.lastCallbacks, Request.run_cons, Request.step, if_neg listening,
    ← same.request] at ran'
  obtain ⟨next, called, later⟩ := Option.bind_eq_some_iff.mp ran.symm
  rw [called, Option.map_some] at rejections
  obtain ⟨next', called', same'⟩ := Option.map_eq_some_iff.mp rejections.symm
  rw [called', Option.bind_some] at ran'
  have before := Request.not_rejected_before later accepted.kept
  obtain ⟨last, done, taken⟩ := Request.run_end head second.body (same'.trans before)
  exact ⟨last, ran'.trans done, taken⟩

/-- The head writes the same entries for requests that leave the same behind. -/
theorem entries (same : Matches first second)
    (kept : (begun head first.line).rejected = none) :
    first.entries head = second.entries head := by
  have line := begun_eq same.line kept
  have lines : first.requestLine head = second.requestLine head := by
    rw [requestLine_eq kept, requestLine_eq (by rw [line]; exact kept), line]
  rw [Incoming.entries, Incoming.entries, Incoming.added, Incoming.added, lines,
    same.clientEntries, same.request]

theorem plain (same : Matches first second) (plain : first.Plain) : second.Plain := by
  obtain ⟨values, version⟩ := plain
  refine ⟨fun header member => ?_, same.request ▸ version⟩
  have listed : header.entry ∈ second.clientEntries := List.mem_map_of_mem member
  rw [← same.clientEntries] at listed
  obtain ⟨header', member', entry⟩ := List.mem_map.mp listed
  rw [← entry]
  exact values header' member'

/-- Head and worker agree on the end of a request however its texts are cut. -/
theorem framed (same : Matches first second) (framed : Request.Framed head second req) :
    Request.Framed head first req := by
  obtain ⟨declared, sends, consumes⟩ := framed
  rw [← same.body] at declared consumes
  refine ⟨declared, fun rooms arriving => ?_, consumes⟩
  have sent := sends rooms arriving
  rw [← same.body, Sender.start, ← same.request] at sent
  exact sent

end Matches

end Ebb
