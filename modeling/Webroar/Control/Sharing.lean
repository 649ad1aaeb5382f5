import Mathlib
import Webroar.Configurator.Reply
import Webroar.Head.Sender

/-! # One object for the replies to all workers

The workers of an application are answered with the SCGI object of its configuration. How much of a
reply was sent stands in the object and not in the connection, so a reply goes on where the last
one stopped, whoever that one was for. The object is freed with its configuration, whoever it is
still sent to.
-/

open Scgi (Entry contentLengthEntry scgiEntry)

/-- `scgi_send` when `send` fails: its result is unsigned, so it is added. -/
def Scgi.sendFails (scgi : Scgi) : Scgi × Int × List UInt8 :=
  if scgi.length ≤ scgi.bytesSent then (scgi, 1, [])
  else if scgi.headerOffset - scgi.startOffset ≤ scgi.bytesSent ∧ scgi.body = none then
    (scgi, 1, [])
  else ({ scgi with bytesSent := (scgi.bytesSent + (2 ^ 64 - 1)) % 2 ^ 64 }, -1, [])

namespace ConfReplies

/-- A finished object for replies: it has no body, and nothing of it was sent. -/
structure Conf where
  scgi : Scgi
  length : scgi.length = scgi.block.length
  nonempty : 0 < scgi.block.length
  bodiless : scgi.body.getD [] = []
  fresh : scgi.bytesSent = 0

/-- `wr_ctl_t` of a worker that asked for its configuration: the object that is sent, as long as
the write watcher is active, and whether the connection was freed. Beside that, what the worker is
to get, what it got, from which places in the object, and how often something was sent to it. -/
structure Reply where
  scgi : Option Nat
  freed : Bool
  block : List UInt8
  received : List UInt8
  places : List Nat
  turns : Nat
deriving DecidableEq

/-- The application: the objects of its configuration and of the one that a reload has read, and
whether its state is `WR_APP_RESTART`. -/
structure AppConf where
  scgi : Nat
  new : Option Nat
  restart : Bool

/-- The objects by their addresses, and the workers that have asked so far. -/
structure State where
  app : Option AppConf
  objects : Nat → Option Scgi
  next : Nat
  replies : List Reply

/-- A worker asks, there is room on its connection (none when `send` fails) or it disconnects; the
configuration is read again, taken over, or given up; the application is removed or added. -/
inductive Event where
  | request
  | write (worker room : Nat)
  | close (worker : Nat)
  | reload (conf : Conf)
  | updated
  | rolledBack
  | remove
  | add (conf : Conf)

namespace State

def freeScgi (state : State) (address : Nat) : State :=
  { state with objects := Function.update state.objects address none }

def setReply (state : State) (worker : Nat) (reply : Reply) : State :=
  { state with replies := state.replies.set worker reply }

def setScgi (state : State) (address : Nat) (scgi : Scgi) : State :=
  { state with objects := Function.update state.objects address (some scgi) }

/-- `wr_app_conf_req_cb` and `wr_ctl_resp_write`. A worker of an application that is not there is
answered with an object of its own. -/
def confReqCb (state : State) : Option State :=
  match state.app with
  | none => some state
  | some app =>
      match if app.restart then app.new else some app.scgi with
      | none => none
      | some address =>
          match state.objects address with
          | none => none
          | some scgi => some { state with
              replies := state.replies ++ [⟨some address, false, scgi.block, [], [], 0⟩] }

/-- `scgi_send`. -/
def scgiSend (scgi : Scgi) (room : Nat) : Scgi × Int × List UInt8 :=
  if room = 0 then scgi.sendFails else scgi.send room

/-- What a connection has sent when some bytes from a place in the object were taken. -/
def took (reply : Reply) (room place : Nat) (sent : List UInt8) : Reply :=
  { reply with
    received := reply.received ++ sent
    places := reply.places ++ List.range' place sent.length
    turns := if room = 0 then reply.turns else reply.turns + 1 }

/-- `wr_ctl_msg_write_cb` for an object that is there. -/
def msgWrite (state : State) (worker room address : Nat) (reply : Reply) (scgi : Scgi) : State :=
  let (after, result, sent) := scgiSend scgi room
  let reply := took reply room scgi.bytesSent sent
  if result ≤ 0 then
    (state.setScgi address after).setReply worker reply
  else if after.length ≤ after.bytesSent then
    -- `destroy_scgi` is FALSE
    (state.setScgi address { after with bytesSent := 0 }).setReply worker { reply with scgi := none }
  else
    (state.setScgi address after).setReply worker reply

/-- `wr_ctl_msg_write_cb`; nothing when it touches what was freed. -/
def ctlMsgWriteCb (state : State) (worker room : Nat) : Option State :=
  match state.replies[worker]? with
  | none => some state
  | some reply =>
      match reply.scgi with
      | none => some state
      | some address =>
          -- the watcher of a connection that was freed is still active
          if reply.freed then none
          else match state.objects address with
            | none => none
            | some scgi => some (state.msgWrite worker room address reply scgi)

/-- `wr_ctl_free`: the write watcher is not stopped. -/
def ctlFree (state : State) (worker : Nat) : State :=
  match state.replies[worker]? with
  | none => state
  | some reply => state.setReply worker { reply with freed := true }

/-- A configuration is read into new memory. -/
def readConf (state : State) (conf : Conf) : State :=
  { state.setScgi state.next conf.scgi with next := state.next + 1 }

/-- `wr_app_add_cb`. -/
def appAddCb (state : State) (conf : Conf) : State :=
  match state.app with
  | some _ => state
  | none => { state.readConf conf with app := some ⟨state.next, none, false⟩ }

/-- `wr_app_reload_cb`. -/
def appReloadCb (state : State) (conf : Conf) : State :=
  match state.app with
  | none => state.appAddCb conf
  | some app => { state.readConf conf with app := some ⟨app.scgi, some state.next, true⟩ }

/-- `wr_conf_app_update`, called by `wr_app_reload` when the first new worker was added. -/
def confAppUpdate (state : State) : State :=
  match state.app with
  | some ⟨scgi, some new, true⟩ =>
      { state.freeScgi scgi with app := some ⟨new, none, false⟩ }
  | _ => state

/-- The new configuration is freed when no worker can be added with it. -/
def rollBack (state : State) : State :=
  match state.app with
  | some ⟨scgi, some new, true⟩ =>
      { state.freeScgi new with app := some ⟨scgi, none, false⟩ }
  | _ => state

/-- `wr_app_remove`. -/
def appRemove (state : State) : State :=
  match state.app with
  | none => state
  | some app =>
      let freed := match app.new with
        | none => state.freeScgi app.scgi
        | some new => (state.freeScgi app.scgi).freeScgi new
      { freed with app := none }

def perform (event : Event) (state : State) : Option State :=
  match event with
  | .request => state.confReqCb
  | .write worker room => state.ctlMsgWriteCb worker room
  | .close worker => some (state.ctlFree worker)
  | .reload conf => some (state.appReloadCb conf)
  | .updated => some state.confAppUpdate
  | .rolledBack => some state.rollBack
  | .remove => some state.appRemove
  | .add conf => some (state.appAddCb conf)

/-- An application with its configuration. -/
def start (conf : Conf) : State where
  app := some ⟨0, none, false⟩
  objects := Function.update (fun _ => none) 0 (some conf.scgi)
  next := 1
  replies := []

end State

/-! ### What is to hold -/

/-- A worker gets the bytes of its object from the first one on. When its reply is over it has all
of them, before that the object is there, and each time there is room the reply goes on. -/
structure Gets (objects : Nat → Option Scgi) (reply : Reply) : Prop where
  bytes : reply.received = reply.block.take reply.received.length
  places : reply.places = List.range reply.received.length
  complete : reply.scgi = none → reply.received = reply.block
  going : ∀ address, reply.scgi = some address →
    (∃ scgi, objects address = some scgi ∧ scgi.block = reply.block) ∧
      reply.received.length < reply.block.length ∧ reply.turns ≤ reply.received.length

/-- Every worker that stays connected gets its configuration. -/
def Fine (state : State) : Prop :=
  ∀ reply ∈ state.replies, reply.freed = false → Gets state.objects reply

/-- Is an object sent to a worker that is connected? -/
def InUse (state : State) (address : Nat) : Prop :=
  ∃ reply ∈ state.replies, reply.freed = false ∧ reply.scgi = some address

/-- What must be so before an event. -/
def Good (event : Event) (state : State) : Prop :=
  match event with
  | .write worker room => ∀ reply address, state.replies[worker]? = some reply →
      reply.scgi = some address → reply.freed = false ∧
        ∀ scgi, state.objects address = some scgi →
          if room = 0 then scgi.bytesSent < scgi.length
          else scgi.bytesSent = reply.received.length
  | .updated => ∀ scgi new, state.app = some ⟨scgi, some new, true⟩ → ¬ InUse state scgi
  | .rolledBack => ∀ scgi new, state.app = some ⟨scgi, some new, true⟩ → ¬ InUse state new
  | .remove => ∀ app, state.app = some app →
      ¬ InUse state app.scgi ∧ ∀ new, app.new = some new → ¬ InUse state new
  | .request | .close _ | .reload _ | .add _ => True

variable {state : State} {reply : Reply} {scgi : Scgi} {objects : Nat → Option Scgi}

/-! ### Objects -/

/-- An object is finished and has no body. -/
structure Finished (scgi : Scgi) : Prop where
  length : scgi.length = scgi.block.length
  nonempty : 0 < scgi.block.length
  bodiless : scgi.body.getD [] = []

theorem Conf.finished (conf : Conf) : Finished conf.scgi :=
  ⟨conf.length, conf.nonempty, conf.bodiless⟩

/-- How much was sent does not change the object. -/
theorem Finished.sent (finished : Finished scgi) (count : Nat) :
    Finished { scgi with bytesSent := count } :=
  ⟨finished.length, finished.nonempty, finished.bodiless⟩

/-- Nothing is sent of an object that was sent. -/
theorem scgiSend_over (room : Nat) (complete : scgi.length ≤ scgi.bytesSent) :
    State.scgiSend scgi room = (scgi, 1, []) := by
  unfold State.scgiSend Scgi.sendFails Scgi.send
  dsimp only
  rw [if_pos complete, if_pos complete, ite_self]

/-- A call that fails counts backwards. -/
theorem Finished.scgiSend_fails (finished : Finished scgi)
    (missing : scgi.bytesSent < scgi.length) :
    State.scgiSend scgi 0 =
      ({ scgi with bytesSent := (scgi.bytesSent + (2 ^ 64 - 1)) % 2 ^ 64 }, -1, []) := by
  have header : scgi.headerOffset - scgi.startOffset = scgi.length := by
    rw [finished.length, Scgi.block, Block.length_slice]
  unfold State.scgiSend Scgi.sendFails
  rw [if_pos rfl, if_neg (Nat.not_le_of_lt missing), header,
    if_neg fun both => Nat.not_le_of_lt missing both.1]

/-- A call that succeeds sends some of what is left. -/
theorem Finished.scgiSend_sends (finished : Finished scgi) {room : Nat} (arrived : 0 < room)
    (missing : scgi.bytesSent < scgi.length) :
    ∃ piece rest, 0 < piece.length ∧ scgi.block.drop scgi.bytesSent = piece ++ rest ∧
      ∃ result, 0 < result ∧ State.scgiSend scgi room =
        ({ scgi with bytesSent := scgi.bytesSent + piece.length }, result, piece) := by
  have loaded : (⟨scgi, none, 0, 1, 0, .header, []⟩ : Sender).Loaded scgi.block [] [] :=
    ⟨finished.length, finished.nonempty, rfl, finished.bodiless, Nat.one_pos, .inl ⟨rfl, rfl⟩⟩
  have before : scgi.bytesSent < scgi.block.length + ([] : List UInt8).length :=
    lt_of_lt_of_eq missing finished.length
  obtain ⟨piece, rest, some, small, left, sent⟩ := Sender.send_loaded loaded before arrived
  rw [List.append_nil] at left
  refine ⟨piece, rest, some, left, Decimal.toInt32 piece.length, ?_, ?_⟩
  · rw [Decimal.toInt32_of_lt small]
    exact Int.natCast_pos.mpr some
  · rw [State.scgiSend, if_neg (Nat.ne_of_gt arrived)]
    exact sent

theorem length_built_headers (junk : Nat → UInt8) (items : List Entry) :
    (Scgi.built junk (items.map fun item => .headerAdd item.1 item.2)).length =
      (Scgi.built junk (items.map fun item => .headerAdd item.1 item.2)).block.length := by
  obtain ⟨built, body⟩ := Configurator.built_headers junk items
  rw [built.length, Scgi.bodyLength, body, List.length_nil, Nat.add_zero]

/-- What is read from the configuration file is finished. -/
def Conf.built (junk : Nat → UInt8) (items : List Entry) : Conf where
  scgi := Scgi.built junk (items.map fun item => .headerAdd item.1 item.2)
  length := by exact length_built_headers junk items
  nonempty := by
    have whole := Scgi.length_frame (contentLengthEntry 0 :: scgiEntry :: items)
    rw [(Configurator.built_headers junk items).1.block]
    omega
  bodiless := (Configurator.built_headers junk items).2
  fresh := by
    rw [Scgi.built, Scgi.bytesSent_build, Scgi.drafted, Scgi.bytesSent_run]
    exact Scgi.bytesSent_call _ (.headerAdd _ _)

/-! ### A write -/

/-- What a write makes of a reply. -/
inductive Wrote (scgi : Scgi) (reply : Reply) (room : Nat) : Reply → Prop
  /-- The object counts as sent. -/
  | complete (sent : scgi.length ≤ scgi.bytesSent) :
      Wrote scgi reply room { State.took reply room scgi.bytesSent [] with scgi := none }
  /-- The call failed. -/
  | failed (none : room = 0) (missing : scgi.bytesSent < scgi.length) : Wrote scgi reply room reply
  | part (piece rest : List UInt8) (arrived : 0 < room) (some : 0 < piece.length)
      (left : scgi.block.drop scgi.bytesSent = piece ++ rest)
      (more : scgi.bytesSent + piece.length < scgi.block.length) :
      Wrote scgi reply room (State.took reply room scgi.bytesSent piece)
  | last (piece : List UInt8) (arrived : 0 < room) (some : 0 < piece.length)
      (left : scgi.block.drop scgi.bytesSent = piece) :
      Wrote scgi reply room { State.took reply room scgi.bytesSent piece with scgi := none }

/-- A write changes one reply, and how much of its object was sent. -/
theorem msgWrite_cases (finished : Finished scgi) (state : State) (worker room address : Nat)
    (reply : Reply) :
    ∃ count after, Wrote scgi reply room after ∧
      state.msgWrite worker room address reply scgi =
        (state.setScgi address { scgi with bytesSent := count }).setReply worker after := by
  rcases Nat.lt_or_ge scgi.bytesSent scgi.length with missing | complete
  · rcases Nat.eq_zero_or_pos room with rfl | arrived
    · have sent := finished.scgiSend_fails missing
      refine ⟨(scgi.bytesSent + (2 ^ 64 - 1)) % 2 ^ 64, reply, .failed rfl missing, ?_⟩
      unfold State.msgWrite
      rw [sent]
      dsimp only
      rw [if_pos (by decide)]
      have same : State.took reply 0 scgi.bytesSent [] = reply := by
        rw [State.took, List.append_nil, List.length_nil, List.range'_zero, List.append_nil,
          if_pos rfl]
      rw [same]
    · obtain ⟨piece, rest, some, left, result, positive, sent⟩ :=
        finished.scgiSend_sends arrived missing
      have total : scgi.bytesSent + piece.length + rest.length = scgi.block.length := by
        have lengths := congrArg List.length left
        rw [List.length_drop, List.length_append] at lengths
        have length := finished.length
        omega
      unfold State.msgWrite
      rw [sent]
      dsimp only
      rw [if_neg (Int.not_le_of_gt positive), finished.length]
      by_cases all : scgi.block.length ≤ scgi.bytesSent + piece.length
      · have empty : rest = [] := List.eq_nil_of_length_eq_zero (by omega)
        rw [empty, List.append_nil] at left
        rw [if_pos all]
        exact ⟨0, _, .last piece arrived some left, rfl⟩
      · rw [if_neg all]
        exact ⟨_, _, .part piece rest arrived some left (Nat.lt_of_not_le all), rfl⟩
  · refine ⟨0, _, .complete complete, ?_⟩
    unfold State.msgWrite
    rw [scgiSend_over room complete]
    dsimp only
    rw [if_neg (by decide), if_pos complete]

/-- As long as its object is there and the same, nothing changes for a reply. -/
theorem Gets.keep {changed : Nat → Option Scgi} (gets : Gets objects reply)
    (kept : ∀ address scgi, reply.scgi = some address → objects address = some scgi →
      ∃ after, changed address = some after ∧ after.block = scgi.block) : Gets changed reply := by
  refine ⟨gets.bytes, gets.places, gets.complete, fun address given => ?_⟩
  obtain ⟨⟨scgi, found, block⟩, rest⟩ := gets.going address given
  obtain ⟨after, there, same⟩ := kept address scgi given found
  exact ⟨⟨after, there, same.trans block⟩, rest⟩

/-- The places behind those that were read. -/
theorem range_behind (count more : Nat) :
    List.range count ++ List.range' count more = List.range (count + more) := by
  rw [List.range_add, List.range'_eq_map_range]

/-- A reply that goes on where it is gets the bytes it is to get. -/
theorem Gets.wrote {address room : Nat} {after : Reply} {changed : Scgi} (gets : Gets objects reply)
    (given : reply.scgi = some address) (found : objects address = some scgi)
    (block : scgi.block = reply.block) (finished : Finished scgi)
    (wrote : Wrote scgi reply room after)
    (good : if room = 0 then scgi.bytesSent < scgi.length
      else scgi.bytesSent = reply.received.length)
    (same : changed.block = scgi.block) :
    Gets (Function.update objects address (some changed)) after := by
  obtain ⟨-, before, turns⟩ := gets.going address given
  have length := finished.length
  rw [block] at length
  cases wrote with
  | complete sent =>
      split at good
      · exact absurd sent (Nat.not_le_of_lt good)
      · omega
  | failed none missing =>
      apply gets.keep
      intro other held taken there
      rw [given] at taken
      obtain rfl := Option.some.inj taken
      rw [found] at there
      obtain rfl := Option.some.inj there
      exact ⟨changed, Function.update_self .., same⟩
  | part piece rest arrived some left more =>
      rw [if_neg (Nat.ne_of_gt arrived)] at good
      rw [good, block] at left more
      have next := Stream.take_piece left
      rw [← gets.bytes] at next
      unfold State.took
      rw [if_neg (Nat.ne_of_gt arrived), good]
      constructor
      · dsimp only
        rw [List.length_append, next]
      · dsimp only
        rw [gets.places, range_behind, List.length_append]
      · intro none
        exact nomatch given.symm.trans none
      · intro other taken
        obtain rfl : address = other := Option.some.inj (given.symm.trans taken)
        dsimp only
        rw [List.length_append]
        exact ⟨⟨changed, Function.update_self .., same.trans block⟩, more, by omega⟩
  | last piece arrived some left =>
      rw [if_neg (Nat.ne_of_gt arrived)] at good
      rw [good, block] at left
      have all : reply.received ++ piece = reply.block := by
        rw [gets.bytes, ← left]
        exact List.take_append_drop _ _
      unfold State.took
      rw [if_neg (Nat.ne_of_gt arrived), good]
      constructor
      · dsimp only
        rw [all, List.take_length]
      · dsimp only
        rw [gets.places, range_behind, List.length_append]
      · intro _
        exact all
      · intro other taken
        cases taken

/-- Only such a reply does. -/
theorem Gets.good {address room : Nat} {after : Reply} {changed : Nat → Option Scgi}
    (gets : Gets objects reply) (given : reply.scgi = some address)
    (wrote : Wrote scgi reply room after) (later : Gets changed after) :
    if room = 0 then scgi.bytesSent < scgi.length
    else scgi.bytesSent = reply.received.length := by
  obtain ⟨-, before, -⟩ := gets.going address given
  have place : ∀ piece : List UInt8, 0 < piece.length →
      reply.places ++ List.range' scgi.bytesSent piece.length =
        List.range (reply.received ++ piece).length →
      scgi.bytesSent = reply.received.length := by
    intro piece some places
    rw [gets.places, List.length_append, ← range_behind, List.append_cancel_left_eq] at places
    obtain ⟨count, more⟩ := Nat.exists_eq_add_of_lt some
    rw [Nat.zero_add] at more
    rw [more, List.range'_succ, List.range'_succ] at places
    exact (List.cons.inj places).1
  cases wrote with
  | complete sent =>
      have whole := later.complete rfl
      unfold State.took at whole
      dsimp only at whole
      rw [List.append_nil] at whole
      rw [whole] at before
      exact absurd before (Nat.lt_irrefl _)
  | failed none missing =>
      rw [if_pos none]
      exact missing
  | part piece rest arrived some left more =>
      rw [if_neg (Nat.ne_of_gt arrived)]
      exact place piece some later.places
  | last piece arrived some left =>
      rw [if_neg (Nat.ne_of_gt arrived)]
      exact place piece some later.places

/-! ### Runs -/

/-- The configuration has its objects, and every object is finished. -/
structure Inv (state : State) : Prop where
  fine : Fine state
  objects : ∀ address scgi, state.objects address = some scgi →
    address < state.next ∧ Finished scgi
  app : ∀ app, state.app = some app → app.restart = app.new.isSome ∧
    (∃ scgi, state.objects app.scgi = some scgi) ∧
    ∀ new, app.new = some new → new ≠ app.scgi ∧ ∃ scgi, state.objects new = some scgi

/-- More objects do not disturb the replies. -/
theorem Inv.readConf (inv : Inv state) (conf : Conf) {app : AppConf}
    (own : (∃ scgi, state.objects app.scgi = some scgi) ∧ app.restart = true ∧
        app.new = some state.next ∨ app = ⟨state.next, none, false⟩) :
    Inv { state.readConf conf with app := some app } := by
  have older : ∀ address scgi, state.objects address = some scgi →
      (state.readConf conf).objects address = some scgi := by
    intro address scgi found
    have below := (inv.objects address scgi found).1
    exact (Function.update_of_ne (Nat.ne_of_lt below) ..).trans found
  have newest : (state.readConf conf).objects state.next = some conf.scgi :=
    Function.update_self ..
  constructor
  · intro reply member connected
    apply (inv.fine reply member connected).keep
    intro address scgi _ found
    exact ⟨scgi, older address scgi found, rfl⟩
  · intro address scgi found
    by_cases fresh : address = state.next
    · subst fresh
      rw [show _ = some conf.scgi from newest] at found
      rw [← Option.some.inj found]
      exact ⟨Nat.lt_succ_self _, conf.finished⟩
    · have old : state.objects address = some scgi :=
        (Function.update_of_ne fresh ..).symm.trans found
      obtain ⟨below, finished⟩ := inv.objects address scgi old
      exact ⟨Nat.lt_succ_of_lt below, finished⟩
  · intro other same
    obtain rfl := Option.some.inj same
    rcases own with ⟨⟨scgi, found⟩, restart, new⟩ | rfl
    · refine ⟨by rw [restart, new]; rfl, ⟨scgi, older _ scgi found⟩, fun next given => ?_⟩
      rw [new] at given
      obtain rfl := Option.some.inj given
      refine ⟨?_, conf.scgi, newest⟩
      intro equal
      have below := (inv.objects _ scgi found).1
      omega
    · exact ⟨rfl, ⟨conf.scgi, newest⟩, fun _ none => nomatch none⟩

/-- Freeing an object that no connected worker is sent to disturbs no reply. -/
theorem Fine.freeScgi (fine : Fine state) {address : Nat} (idle : ¬ InUse state address) :
    Fine (state.freeScgi address) := by
  intro reply member connected
  apply (fine reply member connected).keep
  intro other scgi given found
  have apart : other ≠ address := by
    rintro rfl
    exact idle ⟨reply, member, connected, given⟩
  exact ⟨scgi, (Function.update_of_ne apart ..).trans found, rfl⟩

/-- Only such an object may be freed. -/
theorem Fine.idle {address : Nat} (fine : Fine (state.freeScgi address)) :
    ¬ InUse state address := by
  rintro ⟨reply, member, connected, given⟩
  obtain ⟨⟨scgi, found, -⟩, -⟩ := (fine reply member connected).going address given
  exact nomatch (Function.update_self (f := state.objects) ..).symm.trans found

theorem objects_freeScgi {address other : Nat}
    (found : (state.freeScgi address).objects other = some scgi) :
    other ≠ address ∧ state.objects other = some scgi := by
  unfold State.freeScgi at found
  dsimp only at found
  rw [Function.update_apply] at found
  split at found
  · cases found
  · next apart => exact ⟨apart, found⟩

/-- A configuration without its old object, or without the new one. -/
theorem Inv.freeScgi (inv : Inv state) {address : Nat} {app : Option AppConf}
    (idle : ¬ InUse state address)
    (left : ∀ kept, app = some kept → kept.restart = false ∧ kept.new = none ∧
      kept.scgi ≠ address ∧ ∃ scgi, state.objects kept.scgi = some scgi) :
    Inv { state.freeScgi address with app } where
  fine := inv.fine.freeScgi idle
  objects := fun other scgi found => inv.objects other scgi (objects_freeScgi found).2
  app := by
    intro kept same
    obtain ⟨restart, new, apart, scgi, found⟩ := left kept same
    refine ⟨by rw [restart, new]; rfl, ⟨scgi, ?_⟩, fun next given => ?_⟩
    · exact (Function.update_of_ne apart ..).trans found
    · rw [new] at given
      cases given

theorem Inv.confReqCb (inv : Inv state) :
    ∃ after, state.confReqCb = some after ∧ Inv after := by
  unfold State.confReqCb
  cases same : state.app with
  | none => exact ⟨state, rfl, inv⟩
  | some app =>
      obtain ⟨restart, own, next⟩ := inv.app app same
      have given : ∃ address scgi, (if app.restart = true then app.new else some app.scgi) =
          some address ∧ state.objects address = some scgi := by
        by_cases restarts : app.restart = true
        · rw [if_pos restarts]
          obtain ⟨new, read⟩ := Option.isSome_iff_exists.mp (restart.symm.trans restarts)
          obtain ⟨-, scgi, found⟩ := next new read
          exact ⟨new, scgi, read, found⟩
        · rw [if_neg restarts]
          obtain ⟨scgi, found⟩ := own
          exact ⟨app.scgi, scgi, rfl, found⟩
      obtain ⟨address, scgi, read, found⟩ := given
      dsimp only
      rw [read]
      dsimp only
      rw [found]
      refine ⟨_, rfl, ?_, inv.objects, fun other equal => inv.app other (same.trans equal)⟩
      intro reply member connected
      rcases List.mem_append.mp member with old | new
      · exact inv.fine reply old connected
      · obtain rfl := List.mem_singleton.mp new
        refine ⟨List.take_zero.symm, rfl, nofun, fun other taken => ?_⟩
        obtain rfl := Option.some.inj taken
        exact ⟨⟨scgi, found, rfl⟩, (inv.objects _ scgi found).2.nonempty, Nat.le_refl 0⟩

/-- A write to a worker, where there is something to write. -/
theorem Inv.msgWrite (inv : Inv state) {worker room address : Nat}
    (held : state.replies[worker]? = some reply) (given : reply.scgi = some address)
    (connected : reply.freed = false) (found : state.objects address = some scgi) :
    (Fine (state.msgWrite worker room address reply scgi) →
      if room = 0 then scgi.bytesSent < scgi.length
      else scgi.bytesSent = reply.received.length) ∧
    ((if room = 0 then scgi.bytesSent < scgi.length
      else scgi.bytesSent = reply.received.length) →
      Inv (state.msgWrite worker room address reply scgi)) := by
  obtain ⟨below, finished⟩ := inv.objects address scgi found
  obtain ⟨count, after, wrote, shape⟩ := msgWrite_cases finished state worker room address reply
  have member := List.mem_of_getElem? held
  have gets := inv.fine reply member connected
  obtain ⟨⟨known, there, block⟩, -⟩ := gets.going address given
  obtain rfl : scgi = known := Option.some.inj (found.symm.trans there)
  have stays : after.freed = false := by
    cases wrote with
    | _ => exact connected
  rw [shape]
  constructor
  · intro fine
    have written : after ∈ (state.replies.set worker after) :=
      List.mem_set (List.getElem?_eq_some_iff.mp held).1 after
    exact gets.good given wrote (fine after written stays)
  · intro good
    constructor
    · intro other listed linked
      rcases List.mem_or_eq_of_mem_set listed with old | rfl
      · apply (inv.fine other old linked).keep
        intro place object _ present
        by_cases same : place = address
        · subst same
          obtain rfl := Option.some.inj (found.symm.trans present)
          exact ⟨_, Function.update_self .., rfl⟩
        · exact ⟨object, (Function.update_of_ne same ..).trans present, rfl⟩
      · exact gets.wrote given found block finished wrote good rfl
    · intro place object present
      unfold State.setReply State.setScgi at present
      dsimp only at present
      rw [Function.update_apply] at present
      split at present
      · next same =>
          subst same
          rw [← Option.some.inj present]
          exact ⟨below, finished.sent count⟩
      · exact inv.objects place object present
    · intro app same
      obtain ⟨restart, ⟨own, present⟩, next⟩ := inv.app app same
      have stays : ∀ place object, state.objects place = some object →
          ∃ later, Function.update state.objects address
            (some { scgi with bytesSent := count }) place = some later := by
        intro place object present
        rw [Function.update_apply]
        split
        · exact ⟨_, rfl⟩
        · exact ⟨object, present⟩
      refine ⟨restart, stays _ own present, fun new read => ?_⟩
      obtain ⟨apart, object, present⟩ := next new read
      exact ⟨apart, stays _ object present⟩

theorem Inv.ctlFree (inv : Inv state) (worker : Nat) : Inv (state.ctlFree worker) := by
  unfold State.ctlFree
  split
  · exact inv
  · next reply held =>
      refine ⟨?_, inv.objects, inv.app⟩
      intro other listed connected
      rcases List.mem_or_eq_of_mem_set listed with old | rfl
      · exact inv.fine other old connected
      · cases connected

theorem Inv.appAddCb (inv : Inv state) (conf : Conf) : Inv (state.appAddCb conf) := by
  unfold State.appAddCb
  split
  · exact inv
  · exact inv.readConf conf (Or.inr rfl)

theorem Inv.appReloadCb (inv : Inv state) (conf : Conf) : Inv (state.appReloadCb conf) := by
  unfold State.appReloadCb
  split
  · exact inv.appAddCb conf
  · next app same =>
      obtain ⟨-, own, -⟩ := inv.app app same
      exact inv.readConf conf (Or.inl ⟨own, rfl, rfl⟩)

/-- The new configuration is taken over, or given up. -/
theorem Inv.confAppUpdate (inv : Inv state) :
    (Good .updated state → Inv state.confAppUpdate) ∧
      (Fine state.confAppUpdate → Good .updated state) := by
  unfold State.confAppUpdate Good
  dsimp only
  split
  · next scgi new same =>
      constructor
      · intro good
        apply inv.freeScgi (good scgi new same)
        intro kept taken
        obtain rfl := Option.some.inj taken
        obtain ⟨-, -, next⟩ := inv.app _ same
        obtain ⟨apart, found⟩ := next new rfl
        exact ⟨rfl, rfl, apart, found⟩
      · intro fine other also equal
        obtain ⟨rfl, -⟩ := AppConf.mk.inj (Option.some.inj (same.symm.trans equal))
        exact @Fine.idle state scgi fine
  · next odd =>
      exact ⟨fun _ => inv, fun _ scgi new same => absurd same (odd scgi new)⟩

theorem Inv.rollBack (inv : Inv state) :
    (Good .rolledBack state → Inv state.rollBack) ∧
      (Fine state.rollBack → Good .rolledBack state) := by
  unfold State.rollBack Good
  dsimp only
  split
  · next scgi new same =>
      constructor
      · intro good
        apply inv.freeScgi (good scgi new same)
        intro kept taken
        obtain rfl := Option.some.inj taken
        obtain ⟨-, own, next⟩ := inv.app _ same
        exact ⟨rfl, rfl, (next new rfl).1.symm, own⟩
      · intro fine other also equal
        obtain ⟨-, read, -⟩ := AppConf.mk.inj (Option.some.inj (same.symm.trans equal))
        obtain rfl := Option.some.inj read
        exact @Fine.idle state new fine
  · next odd =>
      exact ⟨fun _ => inv, fun _ scgi new same => absurd same (odd scgi new)⟩

theorem Inv.appRemove (inv : Inv state) :
    (Good .remove state → Inv state.appRemove) ∧
      (Fine state.appRemove → Good .remove state) := by
  unfold State.appRemove Good
  dsimp only
  split
  · next none =>
      exact ⟨fun _ => inv, fun _ app same => nomatch none.symm.trans same⟩
  · next app same =>
      constructor
      · intro good
        obtain ⟨old, read⟩ := good app same
        cases next : app.new with
        | none => exact inv.freeScgi old nofun
        | some new =>
            have first : Inv { state.freeScgi app.scgi with app := none } :=
              inv.freeScgi old nofun
            exact first.freeScgi (read new next) nofun
      · intro fine other equal
        obtain rfl := Option.some.inj (same.symm.trans equal)
        cases next : app.new with
        | none =>
            rw [next] at fine
            exact ⟨@Fine.idle state app.scgi fine, nofun⟩
        | some new =>
            rw [next] at fine
            have both : Fine ((state.freeScgi app.scgi).freeScgi new) := fine
            refine ⟨?_, fun also read => ?_⟩
            · rintro ⟨reply, member, connected, given⟩
              obtain ⟨⟨scgi, found, -⟩, -⟩ := (both reply member connected).going _ given
              exact (objects_freeScgi (objects_freeScgi found).2).1 rfl
            · obtain rfl := Option.some.inj read
              exact @Fine.idle (state.freeScgi app.scgi) new both

theorem Inv.ctlMsgWriteCb (inv : Inv state) (worker room : Nat) :
    (Good (.write worker room) state →
      ∃ after, state.ctlMsgWriteCb worker room = some after ∧ Inv after) ∧
    ∀ after, state.ctlMsgWriteCb worker room = some after → Fine after →
      Good (.write worker room) state := by
  unfold State.ctlMsgWriteCb Good
  dsimp only
  cases held : state.replies[worker]? with
  | none =>
      refine ⟨fun _ => ⟨state, rfl, inv⟩, fun _ _ _ reply address same => ?_⟩
      cases same
  | some reply =>
      dsimp only
      cases given : reply.scgi with
      | none =>
          refine ⟨fun _ => ⟨state, rfl, inv⟩, fun _ _ _ other address same taken => ?_⟩
          obtain rfl := Option.some.inj same
          cases given.symm.trans taken
      | some address =>
          dsimp only
          cases connected : reply.freed with
          | true =>
              rw [if_pos rfl]
              refine ⟨fun good => ?_, fun _ same => nomatch same⟩
              have linked := (good reply address rfl given).1
              cases connected.symm.trans linked
          | false =>
              rw [if_neg Bool.false_ne_true]
              have gets := inv.fine reply (List.mem_of_getElem? held) connected
              obtain ⟨⟨scgi, found, -⟩, -⟩ := gets.going address given
              obtain ⟨needed, enough⟩ := @Inv.msgWrite state reply scgi inv worker room address held given connected found
              rw [found]
              dsimp only
              constructor
              · intro good
                exact ⟨_, rfl, enough ((good reply address rfl given).2 scgi found)⟩
              · intro after made fine other place same taken
                obtain rfl := Option.some.inj same
                obtain rfl := Option.some.inj (given.symm.trans taken)
                refine ⟨connected, fun object present => ?_⟩
                obtain rfl := Option.some.inj (found.symm.trans present)
                apply needed
                rw [Option.some.inj made]
                exact fine

/-- One event. -/
theorem Inv.step (inv : Inv state) (event : Event) :
    (Good event state → ∃ after, State.perform event state = some after ∧ Inv after) ∧
      ∀ after, State.perform event state = some after → Fine after → Good event state := by
  have always : ∀ after, Inv after → State.perform event state = some after →
      Good event state = True →
      (Good event state → ∃ after, State.perform event state = some after ∧ Inv after) ∧
        ∀ after, State.perform event state = some after → Fine after → Good event state :=
    fun after kept made good => ⟨fun _ => ⟨after, made, kept⟩, fun _ _ _ => good ▸ trivial⟩
  have either : ∀ after, State.perform event state = some after →
      (Good event state → Inv after) ∧ (Fine after → Good event state) →
      (Good event state → ∃ after, State.perform event state = some after ∧ Inv after) ∧
        ∀ after, State.perform event state = some after → Fine after → Good event state := by
    intro after made kept
    refine ⟨fun good => ⟨after, made, kept.1 good⟩, fun other same fine => kept.2 ?_⟩
    rw [Option.some.inj (made.symm.trans same)]
    exact fine
  cases event with
  | request =>
      obtain ⟨after, made, kept⟩ := inv.confReqCb
      exact always after kept made rfl
  | write worker room => exact inv.ctlMsgWriteCb worker room
  | close worker => exact always _ (inv.ctlFree worker) rfl rfl
  | reload conf => exact always _ (inv.appReloadCb conf) rfl rfl
  | updated => exact either _ rfl inv.confAppUpdate
  | rolledBack => exact either _ rfl inv.rollBack
  | remove => exact either _ rfl inv.appRemove
  | add conf => exact always _ (inv.appAddCb conf) rfl rfl

/-- The reply for an application under a base URI. -/
def sampleConf : Conf :=
  Conf.built (fun _ => 0) (Configurator.confReqHeaders (ascii "blog") (ascii "/srv/blog")
    (some (ascii "/blog")) (ascii "rails") (ascii "enabled") (ascii "www") (ascii "production") none)

end ConfReplies
