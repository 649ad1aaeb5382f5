import Webroar.App.Answering
import Webroar.Library.Desk

/-! # The control connections of administrators

An administrator connects to the control socket and asks the head to add, reload or remove an
application. A request that has to wait for a worker is answered by the application, which keeps
the control connection until then; the connection in turn points to the application, so that its
end can be noted there.

Applications are known by number, in the order of their insertion, and so are control connections
and requests. Here are also the callbacks of the applications, since they write answers.
-/

/-- `wr_ctl_t` of an administrator. `scgi` is the number of the request whose response the object
is for, and `built` says that it was handed over to be written. -/
structure Ctl where
  live : Bool
  app : Option Nat
  scgi : Option Nat
  built : Bool
deriving DecidableEq

/-- The applications of the head and its administrators. `names` are those of `server->apps`, the
last inserted first. `asked` holds for each request its connection and the application that forks a
worker for it, `answers` the calls of `wr_ctl_resp_write`. -/
structure Control where
  apps : Nat → Option App
  names : List (String × Nat)
  nextApp : Nat
  ctls : Nat → Ctl
  nextCtl : Nat
  asked : List (Nat × Option Nat)
  answers : List (Desk.Answer Nat)

/-- What an administrator does, and what happens to an application without him. -/
inductive ControlEvent where
  | boot (name : String) (conf : Conf)
  | accept
  | add (ctl : Nat) (name : String) (read : Option Conf)
  | reload (ctl : Nat) (name : String) (read : Option Conf)
  | remove (ctl : Nat) (name : String)
  | written (ctl : Nat)
  | disconnect (ctl : Nat)
  | app (number : Nat) (event : Event)

namespace Control

variable (config : Config) (fork : Nat → Nat → Int)

/-- The application has not been removed. -/
def serves (control : Control) (number : Nat) : Bool :=
  match control.apps number with
  | some app => app.state ≠ .destroy
  | none => false

/-- `wr_app_exist`. -/
def exist (control : Control) (name : String) : Option Nat :=
  (control.names.find? fun known => known.1 = name && control.serves known.2).map Prod.snd

def setApp (control : Control) (number : Nat) (app : App) : Control :=
  { control with apps := Function.update control.apps number (some app) }

def setCtl (control : Control) (number : Nat) (ctl : Ctl) : Control :=
  { control with ctls := Function.update control.ctls number ctl }

/-- `wr_ctl_accept_cb`. -/
def accept (control : Control) : Control :=
  { control.setCtl control.nextCtl ⟨true, none, none, false⟩ with nextCtl := control.nextCtl + 1 }

/-- `wr_ctl_msg_validate` makes the object for the response; the application is the one that will
fork a worker for the request, if any. -/
def validate (control : Control) (ctl : Nat) (app : Option Nat) : Control :=
  { control.setCtl ctl { control.ctls ctl with scgi := some control.asked.length, built := false }
    with asked := control.asked ++ [(ctl, app)] }

/-- `wr_ctl_resp_write`. -/
def respWrite (control : Control) (ctl : Nat) : Control :=
  { control.setCtl ctl { control.ctls ctl with built := true } with
    answers := control.answers ++
      [⟨ctl, (control.ctls ctl).live, (control.ctls ctl).scgi⟩] }

/-- A callback of an application, which may write answers. -/
def callback (control : Control) (number : Nat) (event : Event) : Control :=
  match control.apps number with
  | some app =>
      let after := app.step config (fork number) event
      (after.replies.drop app.replies.length).foldl (fun control reply => control.respWrite reply.1)
        (control.setApp number after)
  | none => control

/-- `wr_app_insert`. -/
def insert (control : Control) (name : String) (conf : Conf) (ctl : Option Nat) : Control :=
  let number := control.nextApp
  let control := { control.setApp number (App.insert config (fork number) conf ctl) with
    names := (name, number) :: control.names
    nextApp := number + 1 }
  match ctl with
  | some ctl => control.setCtl ctl { control.ctls ctl with app := some number }
  | none => control

/-- What `wr_app_add_cb` and `wr_app_reload_cb` do when there is no such application. -/
def insertFor (control : Control) (ctl : Nat) (name : String) (read : Option Conf) : Control :=
  match read with
  | some conf =>
      (control.validate ctl (some control.nextApp)).insert config fork name conf (some ctl)
  | none => (control.validate ctl none).respWrite ctl

/-- `wr_app_add_cb`. -/
def addCb (control : Control) (ctl : Nat) (name : String) (read : Option Conf) : Control :=
  match control.exist name with
  | some number =>
      let control := control.validate ctl none
      (control.setCtl ctl { control.ctls ctl with app := some number }).callback config fork number
        (.addAgain ctl)
  | none => control.insertFor config fork ctl name read

/-- `wr_app_reload_cb`. -/
def reloadCb (control : Control) (ctl : Nat) (name : String) (read : Option Conf) : Control :=
  match control.exist name with
  | some number =>
      (control.validate ctl (if read.isSome then some number else none)).callback config fork
        number (.reload ctl read)
  | none => control.insertFor config fork ctl name read

/-- `wr_app_remove_cb`. -/
def removeCb (control : Control) (ctl : Nat) (name : String) : Control :=
  match control.exist name with
  | some number => (control.validate ctl none).callback config fork number (.remove ctl)
  | none => (control.validate ctl none).respWrite ctl

/-- The end of `wr_ctl_msg_write_cb`, once the whole response is written. -/
def written (control : Control) (ctl : Nat) : Control :=
  control.setCtl ctl { control.ctls ctl with scgi := none, built := false }

/-- `wr_ctl_free` when it resets the pointer of the application to the connection. -/
def unlink (app : App) : App := { app with ctl := none }

/-- `wr_ctl_free`. -/
def free (control : Control) (ctl : Nat) : Control :=
  let freed := control.setCtl ctl { control.ctls ctl with live := false }
  match (control.ctls ctl).app with
  | some number =>
      match control.apps number with
      | some app => freed.setApp number (unlink app)
      | none => freed
  | none => freed

/-- One event. What comes from a connection that is gone has no effect. -/
def step (event : ControlEvent) (control : Control) : Control :=
  match event with
  | .boot name conf =>
      if (control.exist name).isNone then control.insert config fork name conf none else control
  | .accept => control.accept
  | .add ctl name read =>
      if (control.ctls ctl).live then control.addCb config fork ctl name read else control
  | .reload ctl name read =>
      if (control.ctls ctl).live then control.reloadCb config fork ctl name read else control
  | .remove ctl name =>
      if (control.ctls ctl).live then control.removeCb config fork ctl name else control
  | .written ctl =>
      if (control.ctls ctl).live && (control.ctls ctl).built then control.written ctl else control
  | .disconnect ctl => if (control.ctls ctl).live then control.free ctl else control
  | .app number event => if event.own then control.callback config fork number event else control

/-- Nobody has connected and no application is there. -/
def begin : Control where
  apps := fun _ => none
  names := []
  nextApp := 0
  ctls := fun _ => ⟨false, none, none, false⟩
  nextCtl := 0
  asked := []
  answers := []

/-- The state after some events. -/
def after (input : Nat → ControlEvent) (count : Nat) : Control :=
  Machine.after (step config fork) input begin count

end Control
