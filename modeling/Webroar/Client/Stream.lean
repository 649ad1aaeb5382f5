import Mathlib.Data.List.Chain
import Webroar.Client.Failure

/-! # What a client receives

The buffers that libebb is given for a connection have to be whole responses, one after the other,
each to one request and in the order of the requests. Workers hand their responses over in
portions, and an error that comes between two of them puts a page of its own there.
-/

namespace Client

/-- What may follow a buffer: after a portion with more to come another one of the same response,
otherwise the beginning of the response to a later request. -/
def Follows (first second : Piece) : Prop :=
  if first.kind = .part then second.owner = first.owner ∧ second.kind ≠ .error
  else first.owner < second.owner

/-- The buffers make up responses, libebb gets each of them once and in order, and while the
connection is open it has the first that is not written, and the others wait. -/
structure Conn.Intact (conn : Conn) : Prop where
  framed : conn.pieces.IsChain Follows
  handed : conn.writes <+: conn.pieces.map Piece.bytes
  waiting : conn.opened = true → conn.toWrite = conn.resp.head? ∧
    conn.writes ++ conn.resp.tail = conn.pieces.map Piece.bytes

/-- The response to a request is complete. -/
def Told (pieces : List Piece) (req : Nat) : Prop :=
  ∃ piece ∈ pieces, piece.owner = req ∧ piece.kind ≠ .part

/-- The stream of an open connection is intact, and every request that is done has its response. -/
structure Integrity (client : Client) : Prop where
  conn : client.conn.Intact
  answered : client.conn.opened = true → ∀ req, (client.reqs req).created = true →
    (client.reqs req).live = false → Told client.conn.pieces req

/-- The callback is no error that strikes a response of which something was handed over: the
temporary file of a request can be opened, the parser does not fail when the request at fault has
got a response or part of one, and no worker dies that uses such a request, or one that failed. -/
structure Clean (event : Event) (client : Client) : Prop where
  temp : event = .tempFail → client.executing = true → client.conn.currentRequest = none
  parser : event = .parseError → client.executing = true →
    ∀ piece ∈ client.conn.pieces, piece.owner ≠ client.faulty
  worker : ∀ req, event.Kills client req → (client.reqs req).connErr = false ∧
    (client.conn.opened = true → ∀ piece ∈ client.conn.pieces, piece.owner ≠ req)

variable {serverKeepAlive : Bool} {page : Nat → Status → List UInt8} {client after : Client}
  {req : Nat}

/-! ### Buffers in order -/

/-- The buffers end with a whole response, and all were for earlier requests. -/
def Ready (pieces : List Piece) (req : Nat) : Prop :=
  ∀ piece ∈ pieces.getLast?, piece.kind ≠ .part ∧ piece.owner < req

/-- The response to a request is being handed over. -/
def Telling (pieces : List Piece) (req : Nat) : Prop :=
  ∃ piece ∈ pieces.getLast?, piece.kind = .part ∧ piece.owner = req

/-- The buffers end with a whole response. -/
def Ended (pieces : List Piece) : Prop := ∀ piece ∈ pieces.getLast?, piece.kind ≠ .part

theorem Ready.ended {pieces : List Piece} (ready : Ready pieces req) : Ended pieces :=
  fun piece last => (ready piece last).1

theorem Ready.follows {pieces : List Piece} (ready : Ready pieces req) {piece : Piece}
    (owner : piece.owner = req) : ∀ last ∈ pieces.getLast?, Follows last piece := by
  intro last member
  obtain ⟨whole, before⟩ := ready last member
  rw [Follows, if_neg whole, owner]
  exact before

theorem Telling.follows {pieces : List Piece} (telling : Telling pieces req) {piece : Piece}
    (owner : piece.owner = req) (kind : piece.kind ≠ .error) :
    ∀ last ∈ pieces.getLast?, Follows last piece := by
  intro last member
  obtain ⟨known, found, part, same⟩ := telling
  cases Option.mem_unique member found
  rw [Follows, if_pos part]
  exact ⟨owner.trans same.symm, kind⟩

theorem isChain_add {pieces : List Piece} (framed : pieces.IsChain Follows) {piece : Piece}
    (follows : ∀ last ∈ pieces.getLast?, Follows last piece) :
    (pieces ++ [piece]).IsChain Follows := by
  refine framed.append (List.isChain_singleton _) ?_
  intro last member next found
  cases found
  exact follows last member

@[simp] theorem getLast?_add (pieces : List Piece) (piece : Piece) :
    (pieces ++ [piece]).getLast? = some piece := List.getLast?_concat

/-- Owners do not come back to an earlier request. -/
theorem owner_le_last {pieces : List Piece} (framed : pieces.IsChain Follows) {last : Piece}
    (ends : last ∈ pieces.getLast?) : ∀ piece ∈ pieces, piece.owner ≤ last.owner := by
  have rises : pieces.IsChain fun first second => first.owner ≤ second.owner := by
    refine framed.imp ?_
    intro first second follows
    unfold Follows at follows
    split at follows
    · exact follows.1.ge
    · exact follows.le
  let order : Trans (fun first second : Piece => first.owner ≤ second.owner)
      (fun first second : Piece => first.owner ≤ second.owner)
      (fun first second : Piece => first.owner ≤ second.owner) := ⟨Nat.le_trans⟩
  have ordered := List.isChain_iff_pairwise.mp rises
  obtain ⟨front, rfl⟩ := List.getLast?_eq_some_iff.mp ends
  intro piece member
  rcases List.mem_append.mp member with earlier | same
  · exact (List.pairwise_append.mp ordered).2.2 piece earlier last List.mem_cons_self
  · exact (congrArg Piece.owner (List.mem_singleton.mp same)).le

/-- A page that reports an error does not fit behind a part of the response it stands for, nor
behind another one. -/
theorem not_framed {pieces : List Piece} {status : List UInt8}
    (told : ∃ piece ∈ pieces, piece.owner = req) :
    ¬ (pieces ++ [Piece.mk req .error status]).IsChain Follows := by
  intro framed
  obtain ⟨piece, member, owner⟩ := told
  obtain ⟨before, -, follows⟩ := List.isChain_append.mp framed
  cases ends : pieces.getLast? with
  | none =>
      rw [List.getLast?_eq_none_iff.mp ends] at member
      exact nomatch member
  | some last =>
      have least := owner_le_last before ends piece member
      have next := follows last ends _ rfl
      unfold Follows at next
      split at next
      · exact next.2 rfl
      · rw [owner] at least
        exact absurd next (Nat.not_lt.mpr least)

namespace Conn

variable {conn : Conn}

theorem respBodyAdd_open (kept : conn.freed = false) (unclosed : conn.isClosed = false)
    (piece : Piece) : conn.respBodyAdd piece = some (conn.add piece) := by
  unfold respBodyAdd
  rw [kept, if_neg Bool.false_ne_true, unclosed, if_neg Bool.false_ne_true]

/-- The page goes behind what waits, and is written at once if nothing does. -/
theorem add_eq (conn : Conn) (piece : Piece) :
    ∃ toWrite writes, conn.add piece = { conn with
      resp := conn.resp ++ [piece.bytes]
      pieces := conn.pieces ++ [piece]
      toWrite := toWrite
      writes := writes } := by
  unfold add
  split
  · next empty =>
      unfold ebbWrite
      split
      · exact ⟨_, _, by rw [empty]; rfl⟩
      · exact ⟨_, _, by rw [empty]; rfl⟩
  · exact ⟨_, _, rfl⟩

theorem Intact.add (intact : conn.Intact) (opened : conn.opened = true) {piece : Piece}
    (follows : ∀ last ∈ conn.pieces.getLast?, Follows last piece) : (conn.add piece).Intact := by
  obtain ⟨writing, split⟩ := intact.waiting opened
  have framed := isChain_add intact.framed follows
  unfold Conn.add
  cases waits : conn.resp with
  | nil =>
      rw [waits] at writing split
      rw [List.tail_nil, List.append_nil] at split
      unfold ebbWrite
      dsimp only
      rw [writing]
      dsimp only [List.head?_nil]
      have all : conn.writes ++ [piece.bytes] = (conn.pieces ++ [piece]).map Piece.bytes := by
        rw [split, List.map_append]
        rfl
      refine ⟨framed, ?_, fun _ => ⟨rfl, ?_⟩⟩
      · exact all ▸ List.prefix_rfl
      · rw [← all]
        exact List.append_nil _
  | cons first rest =>
      rw [waits] at writing split
      have all : conn.writes ++ (rest ++ [piece.bytes]) =
          (conn.pieces ++ [piece]).map Piece.bytes := by
        rw [← List.append_assoc, List.map_append]
        exact congrArg (· ++ [piece.bytes]) split
      refine ⟨framed, ?_, fun _ => ⟨writing, all⟩⟩
      rw [← all]
      exact List.prefix_append _ _

/-- What matters for the stream. -/
theorem Intact.congr {after : Conn} (intact : conn.Intact) (pieces : after.pieces = conn.pieces)
    (writes : after.writes = conn.writes)
    (waits : after.opened = true → conn.opened = true ∧ after.toWrite = conn.toWrite ∧
      after.resp = conn.resp) : after.Intact := by
  refine ⟨pieces ▸ intact.framed, ?_, ?_⟩
  · rw [pieces, writes]
    exact intact.handed
  · intro opened
    obtain ⟨before, toWrite, resp⟩ := waits opened
    rw [pieces, writes, toWrite, resp]
    exact intact.waiting before

/-- Closing stops the stream where it is. -/
theorem Intact.scheduleClose (intact : conn.Intact) : conn.scheduleClose.Intact := by
  have shut : conn.scheduleClose.opened = false ∧ conn.scheduleClose.pieces = conn.pieces ∧
      conn.scheduleClose.writes = conn.writes := by
    unfold Conn.scheduleClose closeCb
    split <;> exact ⟨rfl, rfl, rfl⟩
  obtain ⟨closed, pieces, writes⟩ := shut
  exact intact.congr pieces writes fun opened => nomatch closed.symm.trans opened

end Conn

end Client
