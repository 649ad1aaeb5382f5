import Webroar.Head.Resolver
import Webroar.Head.UriDecode

/-! # Static files of an application

A request that was routed to an application may be for one of its static files. The head takes the
base URI of the application off the path of the request, decodes the rest and looks for it in the
public directory of the application. The base URI is taken off by its length; that the path begins
with it is not checked, since routing looked at a hash of the first segment only.
-/

open Percent (sign Encodes Escaped)
open UriDecode (uriDecode)

namespace Resolver

/-- A path as libebb passes it on: without NULs and question marks, and with whole escapes. -/
structure ReqPath where
  bytes : List UInt8
  noZero : (0 : UInt8) ∉ bytes
  noQuery : (63 : UInt8) ∉ bytes
  escaped : Escaped bytes

/-- What of its configuration decides on the static files of an application. -/
structure AppPlace where
  path : Text
  baseuri : Option Uri

/-- The base URI; none is an empty one. -/
def AppPlace.uri (place : AppPlace) : List UInt8 := (place.baseuri.map (·.1.1)).getD []

/-- `STR_SIZE1KB`. -/
def strSize1KB : Nat := 1024

/-- The file for which `wr_req_resolve_static_content` looks, if it looks for any, with `slice` for
what is left of the path. Nothing when it does not fit into the buffer. -/
def lookedUp (place : AppPlace) (slice : List UInt8) : Option (List UInt8) :=
  (uriDecode (slice ++ [0]) slice.length).bind fun decoded =>
    let path := place.path.1 ++ ascii "/public" ++ decoded.str.takeWhile (· ≠ 0)
    if path.length < strSize1KB + Config.maxPathSize then some path else none

/-- `wr_req_resolve_static_content` up to `stat`, with as many static workers as `staticWorkers`
says, if there is a static application. Nothing when it reads a path that is not there, has a
negative length or writes behind its buffer. -/
def wrReqResolveStaticContent (staticWorkers : Option Nat) (place : AppPlace)
    (reqPath : Option ReqPath) : Option (Option (List UInt8)) :=
  let length := (reqPath.map (·.bytes.length)).getD 0
  if staticWorkers.getD 0 = 0 then some none
  else if length = place.uri.length then some none
  else if 1 < place.uri.length then
    if length < place.uri.length then none
    else match reqPath with
      | none => none
      | some path => (lookedUp place (path.bytes.drop place.uri.length)).map some
  else match reqPath with
    | none => none
    | some path => (lookedUp place path.bytes).map some

variable {α : Type}

/-- `wr_req_resolve_http_req`: the application of a request, and what is looked up for it. -/
def wrReqResolveHttpReq (server : Server α) (workers : α → Nat) (staticWorkers : Option Nat)
    (place : α → AppPlace) (reqPath : Option ReqPath) (httpHost : Option (List UInt8)) :
    Option (α × Option (Option (List UInt8))) :=
  (server.resolveHttpReq workers (reqPath.map (·.bytes)) httpHost).map fun app =>
    (app, wrReqResolveStaticContent staticWorkers (place app) reqPath)

/-! ### What should be looked up -/

/-- The segments of the base URI, without a slash at the end. -/
def AppPlace.front (place : AppPlace) : List UInt8 :=
  if place.uri.getLast? = some slash then place.uri.dropLast else place.uri

/-- What is left of a path behind the base URI: nothing, or further segments. -/
def AppPlace.Remainder (place : AppPlace) (path : ReqPath) (rest : List UInt8) : Prop :=
  path.bytes = place.front ++ rest ∧ (rest = [] ∨ rest.head? = some slash)

/-- The file is the public directory and the decoded rest of the path. -/
def AppPlace.Inside (place : AppPlace) (reqPath : Option ReqPath) (file : List UInt8) : Prop :=
  ∃ path rest text, reqPath = some path ∧ place.Remainder path rest ∧ Encodes rest text ∧
    file = place.path.1 ++ ascii "/public" ++ text

/-- Nothing is read or computed that is not there, and only the right file is looked up. -/
def AppPlace.StaysInside (place : AppPlace) (reqPath : Option ReqPath) :
    Option (Option (List UInt8)) → Prop
  | none => False
  | some looked => ∀ file, looked = some file → place.Inside reqPath file

/-- The base URI is none, the root, or has no slash at the end. -/
def AppPlace.Plain (place : AppPlace) : Prop :=
  place.uri.length ≤ 1 ∧ (place.uri = [] ∨ place.uri = [slash]) ∨
    1 < place.uri.length ∧ place.uri.getLast? ≠ some slash

/-- The path goes on behind the base URI, no NUL is escaped in it, and the name of the file is not
too long. -/
structure AppPlace.Goes (place : AppPlace) (path : ReqPath) (rest text : List UInt8) : Prop where
  remainder : place.Remainder path rest
  encodes : Encodes rest text
  noZero : (0 : UInt8) ∉ text
  short : place.path.1.length + 7 + text.length < strSize1KB + Config.maxPathSize

/-- Nothing is looked up, or the path goes on behind a base URI that has no slash at the end. -/
def AppPlace.Fits (place : AppPlace) (staticWorkers : Option Nat) (reqPath : Option ReqPath) :
    Prop :=
  staticWorkers.getD 0 = 0 ∨ (reqPath.map (·.bytes.length)).getD 0 = place.uri.length ∨
    place.Plain ∧ ∃ path rest text, reqPath = some path ∧ place.Goes path rest text

variable {place : AppPlace} {staticWorkers : Option Nat} {reqPath : Option ReqPath}

/-! ### What is looked up -/

/-- The file for a part of a path. -/
theorem lookedUp_eq (place : AppPlace) (path : ReqPath) {before slice : List UInt8}
    (cut : path.bytes = before ++ slice) :
    ∃ text, Encodes slice text ∧ lookedUp place slice =
      if place.path.1.length + 7 + (text.takeWhile (· ≠ 0)).length <
          strSize1KB + Config.maxPathSize then
        some (place.path.1 ++ ascii "/public" ++ text.takeWhile (· ≠ 0))
      else none := by
  obtain ⟨text, encodes⟩ := (path.escaped.drop cut).encodes
  refine ⟨text, encodes, ?_⟩
  have noZero : (0 : UInt8) ∉ slice := fun member =>
    path.noZero (cut ▸ List.mem_append_right _ member)
  have noQuery : (63 : UInt8) ∉ slice := fun member =>
    path.noQuery (cut ▸ List.mem_append_right _ member)
  have length : ∀ text : List UInt8, (place.path.1 ++ ascii "/public" ++ text).length =
      place.path.1.length + 7 + text.length := fun text => by
    rw [List.length_append, List.length_append]
    rfl
  rw [lookedUp, UriDecode.uriDecode_eq encodes (Or.inl rfl) noZero noQuery [], Option.bind_some]
  dsimp only
  rw [UriDecode.takeWhile_zero, length]

/-- What behind a slash is left of a base URI that has one at its end. -/
theorem uri_of_slash (ends : place.uri.getLast? = some slash) :
    place.uri = place.front ++ [slash] := by
  obtain ⟨front, spelled⟩ := List.getLast?_eq_some_iff.mp ends
  rw [AppPlace.front, if_pos ends, spelled, List.dropLast_concat]

theorem front_of_not_slash (other : place.uri.getLast? ≠ some slash) :
    place.front = place.uri := if_neg other

theorem length_takeWhile_le (text : List UInt8) :
    (text.takeWhile (· ≠ 0)).length ≤ text.length := (List.takeWhile_prefix _).length_le

/-- The file of a slice is the right one just when it is that of a remainder. -/
theorem inside_iff {path : ReqPath} {text : List UInt8} :
    place.Inside (some path)
        (place.path.1 ++ ascii "/public" ++ text.takeWhile (· ≠ 0)) ↔
      ∃ rest, place.Remainder path rest ∧ Encodes rest (text.takeWhile (· ≠ 0)) := by
  constructor
  · rintro ⟨_, rest, other, ⟨⟩, remainder, coded, same⟩
    rw [← List.append_cancel_left same] at coded
    exact ⟨rest, remainder, coded⟩
  · rintro ⟨rest, remainder, coded⟩
    exact ⟨path, rest, _, rfl, remainder, coded, rfl⟩

/-- A text up to its first NUL has none. -/
theorem zero_not_mem_takeWhile (text : List UInt8) : (0 : UInt8) ∉ text.takeWhile (· ≠ 0) :=
  fun member => by
    have visible := List.mem_takeWhile_imp member
    exact absurd rfl (of_decide_eq_true visible)

/-- With a byte too many in front, the text is longer than what is decoded. -/
theorem not_encodes_cons {slice text : List UInt8} {c : UInt8} (encodes : Encodes slice text)
    (other : c ≠ sign) : ¬ Encodes (c :: slice) (text.takeWhile (· ≠ 0)) := by
  intro coded
  have longer := (Encodes.plain other encodes).unique coded
  have short := length_takeWhile_le text
  rw [← longer, List.length_cons] at short
  omega

/-- With a byte too few in front, the text is shorter than what is decoded. -/
theorem not_encodes_tail {slice text : List UInt8} {c : UInt8} (encodes : Encodes (c :: slice) text)
    (visible : c ≠ 0) (goes : slice = [] ∨ slice.head? = some slash) :
    ¬ Encodes slice (text.takeWhile (· ≠ 0)) := by
  intro coded
  cases encodes with
  | @plain _ _ text other encodes =>
      have same := encodes.unique coded
      have plain : (0 : UInt8) ∉ text := same ▸ zero_not_mem_takeWhile _
      rw [List.takeWhile_cons_of_pos (by simpa using visible),
        UriDecode.takeWhile_eq_self plain] at same
      have length := congrArg List.length same
      rw [List.length_cons] at length
      omega
  | escape first _ _ =>
      rcases goes with none | goes
      · cases none
      · cases goes
        cases first

/-- A slice is looked up rightly just when its file is short and that of a remainder. -/
theorem staysInside_iff {path : ReqPath} {before slice : List UInt8}
    (cut : path.bytes = before ++ slice) :
    place.StaysInside (some path) ((lookedUp place slice).map some) ↔
      ∃ text, Encodes slice text ∧
        place.path.1.length + 7 + (text.takeWhile (· ≠ 0)).length <
          strSize1KB + Config.maxPathSize ∧
        ∃ rest, place.Remainder path rest ∧ Encodes rest (text.takeWhile (· ≠ 0)) := by
  obtain ⟨text, encodes, looked⟩ := lookedUp_eq place path cut
  rw [looked]
  split_ifs with short
  · have stays : place.StaysInside (some path) (Option.map some
        (some (place.path.1 ++ ascii "/public" ++ text.takeWhile (· ≠ 0)))) ↔
        place.Inside (some path)
          (place.path.1 ++ ascii "/public" ++ text.takeWhile (· ≠ 0)) :=
      ⟨fun all => all _ rfl, fun inside _ same => Option.some.inj same ▸ inside⟩
    rw [stays, inside_iff]
    constructor
    · exact fun right => ⟨text, encodes, short, right⟩
    · rintro ⟨other, also, -, right⟩
      rw [encodes.unique also]
      exact right
  · refine iff_of_false not_false ?_
    rintro ⟨other, also, fits, -⟩
    rw [encodes.unique also] at short
    exact short fits

/-- Where the slice is what is left behind the base URI, it only has to be one. -/
theorem staysInside_iff_goes {path : ReqPath} {before slice : List UInt8}
    (cut : path.bytes = before ++ slice)
    (sliced : ∀ rest, place.Remainder path rest → rest = slice) :
    place.StaysInside (some path) ((lookedUp place slice).map some) ↔
      ∃ rest text, place.Goes path rest text := by
  rw [staysInside_iff cut]
  constructor
  · rintro ⟨text, encodes, short, rest, remainder, coded⟩
    have exact := sliced rest remainder
    exact ⟨rest, _, remainder, coded, zero_not_mem_takeWhile text, short⟩
  · rintro ⟨rest, text, goes⟩
    have exact := sliced rest goes.remainder
    have whole := UriDecode.takeWhile_eq_self goes.noZero
    refine ⟨text, exact ▸ goes.encodes, ?_, rest, goes.remainder, ?_⟩
    · rw [whole]
      exact goes.short
    · rw [whole]
      exact goes.encodes

/-- Without a base URI, or with that of the root, the whole path is the remainder. -/
theorem remainder_of_root {path : ReqPath} (root : place.uri = [] ∨ place.uri = [slash])
    {rest : List UInt8} (remainder : place.Remainder path rest) : rest = path.bytes := by
  have front : place.front = [] := by
    rw [AppPlace.front]
    rcases root with root | root
    · rw [root]
      rfl
    · rw [root]
      rfl
  rw [remainder.1, front]
  rfl

/-- A base URI that has no slash at the end is what is cut off. -/
theorem remainder_of_not_slash {path : ReqPath} (other : place.uri.getLast? ≠ some slash)
    {rest : List UInt8} (remainder : place.Remainder path rest) :
    rest = path.bytes.drop place.uri.length := by
  rw [remainder.1, front_of_not_slash other, List.drop_left]

/-- Behind a slash at the end of the base URI the wrong file is looked up. -/
theorem not_staysInside_of_slash {path : ReqPath} (ends : place.uri.getLast? = some slash)
    (long : place.uri.length ≤ path.bytes.length) :
    ¬ place.StaysInside (some path)
      ((lookedUp place (path.bytes.drop place.uri.length)).map some) := by
  rw [staysInside_iff (List.take_append_drop _ _).symm]
  rintro ⟨text, encodes, -, rest, ⟨spelled, goes⟩, coded⟩
  have count := congrArg List.length (uri_of_slash ends)
  rw [List.length_append, List.length_singleton] at count
  have total := congrArg List.length spelled
  rw [List.length_append] at total
  rcases goes with rfl | goes
  · rw [List.length_nil] at total
    omega
  · obtain ⟨after, rfl⟩ := List.head?_eq_some_iff.mp goes
    have cut : path.bytes.drop place.uri.length = after := by
      rw [spelled, count, ← List.drop_drop, List.drop_left]
      rfl
    rw [cut] at encodes
    exact not_encodes_cons encodes (by decide) coded

/-- A base URI of one byte that is no slash is not taken off. -/
theorem not_staysInside_of_byte {path : ReqPath} {c : UInt8} (uri : place.uri = [c])
    (other : c ≠ slash) :
    ¬ place.StaysInside (some path) ((lookedUp place path.bytes).map some) := by
  rw [staysInside_iff (List.nil_append _).symm]
  rintro ⟨text, encodes, -, rest, ⟨spelled, goes⟩, coded⟩
  have front : place.front = [c] := by
    rw [front_of_not_slash, uri]
    rw [uri]
    exact fun same => other (Option.some.inj same)
  rw [front, List.singleton_append] at spelled
  rw [spelled] at encodes
  refine not_encodes_tail encodes ?_ goes coded
  rintro rfl
  exact path.noZero (spelled ▸ List.mem_cons_self)

/-- Nothing goes wrong just when nothing is looked up or the path goes on behind the base URI. -/
theorem wrReqResolveStaticContent_iff (place : AppPlace) (staticWorkers : Option Nat)
    (reqPath : Option ReqPath) :
    place.StaysInside reqPath (wrReqResolveStaticContent staticWorkers place reqPath) ↔
      place.Fits staticWorkers reqPath := by
  unfold wrReqResolveStaticContent AppPlace.Fits
  dsimp only
  by_cases down : staticWorkers.getD 0 = 0
  · rw [if_pos down]
    exact iff_of_true nofun (Or.inl down)
  rw [if_neg down]
  by_cases equal : (reqPath.map (·.bytes.length)).getD 0 = place.uri.length
  · rw [if_pos equal]
    exact iff_of_true nofun (Or.inr (Or.inl equal))
  rw [if_neg equal, or_iff_right down, or_iff_right equal]
  cases reqPath with
  | none =>
      refine iff_of_false ?_ ?_
      · split_ifs
        · exact not_false
        · exact not_false
        · exact not_false
      · rintro ⟨-, _, _, _, ⟨⟩, -⟩
  | some path =>
      have goes : (∃ path' rest text, some path = some path' ∧ place.Goes path' rest text) ↔
          ∃ rest text, place.Goes path rest text := by
        constructor
        · rintro ⟨_, rest, text, ⟨⟩, goes⟩
          exact ⟨rest, text, goes⟩
        · rintro ⟨rest, text, goes⟩
          exact ⟨path, rest, text, rfl, goes⟩
      rw [goes]
      rw [Option.map_some, Option.getD_some] at equal
      simp only [Option.map_some, Option.getD_some]
      split_ifs with segments short
      · refine iff_of_false not_false ?_
        rintro ⟨plain, rest, text, goes⟩
        have other : place.uri.getLast? ≠ some slash :=
          plain.elim (fun one => absurd one.1 (by omega)) And.right
        have total := congrArg List.length goes.remainder.1
        rw [front_of_not_slash other, List.length_append] at total
        omega
      · by_cases ends : place.uri.getLast? = some slash
        · refine iff_of_false (not_staysInside_of_slash ends (by omega)) ?_
          rintro ⟨plain, -⟩
          exact plain.elim (fun one => absurd one.1 (by omega)) fun more => more.2 ends
        · rw [staysInside_iff_goes (List.take_append_drop _ _).symm
            fun rest => remainder_of_not_slash ends]
          exact (and_iff_right (Or.inr ⟨segments, ends⟩)).symm
      · by_cases root : place.uri = [] ∨ place.uri = [slash]
        · rw [staysInside_iff_goes (List.nil_append _).symm fun rest => remainder_of_root root]
          exact (and_iff_right (Or.inl ⟨by omega, root⟩)).symm
        · obtain ⟨empty, other⟩ := not_or.mp root
          obtain ⟨c, uri⟩ := List.length_eq_one_iff.mp (by
            have some := List.length_pos_iff.mpr empty
            omega : place.uri.length = 1)
          refine iff_of_false (not_staysInside_of_byte uri ?_) ?_
          · rintro rfl
            exact other uri
          · rintro ⟨plain, -⟩
            exact plain.elim (fun one => root one.2) fun more => absurd more.1 segments

/-! ### Routed requests -/

/-- Of every request that is routed to an application: all goes right just when the static workers
are down, the path has the length of the base URI, or it goes on behind a base URI without a slash
at the end. -/
theorem static_path_iff (server : Server α) (workers : α → Nat) (staticWorkers : Option Nat)
    (place : α → AppPlace) (reqPath : Option ReqPath) (httpHost : Option (List UInt8)) (app : α)
    (looked : Option (Option (List UInt8)))
    (routed : wrReqResolveHttpReq server workers staticWorkers place reqPath httpHost =
      some (app, looked)) :
    (place app).StaysInside reqPath looked ↔ (place app).Fits staticWorkers reqPath := by
  obtain ⟨_, _, same⟩ := Option.map_eq_some_iff.mp routed
  cases same
  exact wrReqResolveStaticContent_iff _ _ _

/-- A path without escapes. -/
def plainPath (bytes : List UInt8) (noZero : (0 : UInt8) ∉ bytes) (noQuery : (63 : UInt8) ∉ bytes)
    (plain : sign ∉ bytes) : ReqPath :=
  ⟨bytes, noZero, noQuery, Escaped.of_not_mem plain⟩

/-- The base URI `/app`, with or without a slash at the end. -/
def appUri (ends : Bool) : Uri :=
  if ends then ⟨⟨ascii "/app/", by decide +kernel⟩, by decide +kernel⟩
  else ⟨⟨ascii "/app", by decide +kernel⟩, by decide +kernel⟩

/-- An application in `/srv`. -/
def appPlace (ends : Bool) : AppPlace := ⟨⟨ascii "/srv", by decide +kernel⟩, some (appUri ends)⟩

/-- A server with this application only. -/
def appServer (ends : Bool) : Server Unit :=
  Server.empty.add ⟨(), ⟨⟨ascii "app", by decide +kernel⟩, some (appUri ends), []⟩⟩

/-- The request for a file of the application. -/
theorem static_path_sample :
    (appPlace false).StaysInside
        (some (plainPath (ascii "/app/x") (by decide +kernel) (by decide +kernel)
          (by decide +kernel)))
        (some (some (ascii "/srv/public/x"))) ↔
      (appPlace false).Fits (some 1)
        (some (plainPath (ascii "/app/x") (by decide +kernel) (by decide +kernel)
          (by decide +kernel))) :=
  static_path_iff (appServer false) (fun _ => 1) (some 1) (fun _ => appPlace false) _ none () _
    (by decide +kernel)

/-- With a slash at the end of the base URI the length of what is left of the path `/app` is
negative. -/
theorem not_static_path : ¬ ∀ app looked,
    wrReqResolveHttpReq (appServer true) (fun _ => 1) (some 1) (fun _ => appPlace true)
        (some (plainPath (ascii "/app") (by decide +kernel) (by decide +kernel)
          (by decide +kernel))) none = some (app, looked) →
      (appPlace true).StaysInside
        (some (plainPath (ascii "/app") (by decide +kernel) (by decide +kernel)
          (by decide +kernel))) looked :=
  fun stays => stays () none (by decide +kernel)

end Resolver
