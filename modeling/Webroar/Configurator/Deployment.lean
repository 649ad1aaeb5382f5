import Webroar.Configurator.Hostname
import Webroar.Head.Registry

/-! # Applications from the configuration file to the running server

The configurations of the applications are a linked list, the applications of the server point into
it. They are made from the file when the server starts; later ones are added, reloaded and removed
by name. The list and the server are searched by name each on its own, so where names repeat the
two searches may find different applications.
-/

namespace Configurator

open Resolver (AppConf Uri Host staticName)

/-- A node of `Application Specification`: the name, and what `wr_config_application_set` makes of
the rest; nothing when it refuses the node. -/
structure AppNode where
  name : Text
  settings : Option (Option Uri × List Host)

def AppNode.conf (node : AppNode) : Option AppConf :=
  node.settings.map fun settings => ⟨node.name, settings.1, settings.2⟩

/-- `wr_iterate_app_node`. -/
def iterateAppNode (nodes : List AppNode) : List Entry :=
  (nodes.filterMap AppNode.conf).mapIdx fun address conf => ⟨address, conf, none⟩

/-- `Config->Application.Admin_panel.name`. -/
def adminName : Text := ⟨ascii "Admin Panel", by decide⟩

/-- `wr_conf_admin_panel_read`, for the user root. -/
def adminPanel : AppConf := ⟨adminName, some adminUri, []⟩

theorem noNul_staticName : (0 : UInt8) ∉ staticName := by decide

theorem staticName_ne_nil : staticName ≠ [] := by decide

/-- `wr_conf_static_server_read`, for the user root: the name is the base URI, too. -/
def staticServer : AppConf :=
  ⟨⟨staticName, noNul_staticName⟩, some ⟨⟨staticName, noNul_staticName⟩, staticName_ne_nil⟩, []⟩

/-- `wr_app_t`: where its configuration is, and whether its state is `WR_APP_RESTART`. -/
structure Live where
  conf : Nat
  restart : Bool
deriving DecidableEq

/-- The list of configurations and the applications of the server. -/
structure Deployment where
  list : List Entry
  apps : List Live
  staticApp : Option Live
  next : Nat
deriving DecidableEq

/-- What happens to applications: requests by name with what the configuration file is then
(nothing when it cannot be parsed), the first worker of a restarted application, or the end of
waiting for it. An application that does not start is removed like one by request. -/
inductive Event where
  | add (name : List UInt8) (file : Option (List AppNode))
  | remove (name : List UInt8)
  | reload (name : List UInt8) (file : Option (List AppNode))
  | restarted (name : List UInt8)
  | abandoned (conf : Nat)

/-- Is a request carried out, or answered with an error? -/
inductive Outcome where
  | accepted | refused
deriving DecidableEq

/-- What `wr_conf_app_read` finds under a name: for two names it does not read the file. -/
def confRead (root : Bool) (name : List UInt8) (file : Option (List AppNode)) : Option AppConf :=
  if name = adminName.1 then if root then some adminPanel else none
  else if name = staticName then if root then some staticServer else none
  else file.bind fun nodes => (nodes.find? fun node => node.name.1 = name).bind AppNode.conf

/-- The host names of a new configuration against those of the others in the list. -/
def hostsPass (list : List Entry) (conf : AppConf) : Bool :=
  conf.hostNameList = [] ||
    (chkHostWithinList conf.hostNameList &&
      list.all fun other => other.hosts = [] || other.name = conf.name.1 ||
        chkHostLists conf.hostNameList other.hosts)

/-- What `wr_conf_app_read` takes. -/
def confAccept (root : Bool) (list : List Entry) (name : List UInt8)
    (file : Option (List AppNode)) : Option AppConf :=
  (confRead root name file).filter (hostsPass list)

/-- Change the entry at an address. -/
def setConf (list : List Entry) (address : Nat) (change : Entry → Entry) : List Entry :=
  list.map fun entry => if entry.address = address then change entry else entry

namespace Deployment

/-- The applications that can be reached. -/
def live (state : Deployment) : List Live := state.apps ++ state.staticApp.toList

/-- The loop of `wr_app_exist`; nothing when it reads a configuration that was freed. -/
def search (list : List Entry) (name : List UInt8) : List Live → Option (Option Live)
  | [] => some none
  | app :: rest =>
      match Chain.node Entry.address list app.conf with
      | none => none
      | some entry => if entry.name = name then some (some app) else search list name rest

/-- `wr_app_exist`. -/
def exist (state : Deployment) (name : List UInt8) : Option (Option Live) :=
  (search state.list name state.apps).map fun found =>
    found.or (if name = staticName then state.staticApp else none)

/-- `wr_app_insert`. -/
def appInsert (state : Deployment) (entry : Entry) : Deployment :=
  if entry.name = staticName then { state with staticApp := some ⟨entry.address, false⟩ }
  else { state with apps := ⟨entry.address, false⟩ :: state.apps }

/-- Set the state of an application. -/
def setRestart (state : Deployment) (app : Live) (restart : Bool) : Deployment :=
  let set : Live → Live := fun other => if other = app then { app with restart } else other
  { state with apps := state.apps.map set, staticApp := state.staticApp.map set }

/-- `wr_conf_app_read` of an application that must not be in the list. -/
def readNew (root : Bool) (state : Deployment) (name : List UInt8)
    (file : Option (List AppNode)) : Option AppConf :=
  if state.list.any fun entry => entry.name = name then none
  else confAccept root state.list name file

/-- The entry for a new configuration. -/
def entryOf (state : Deployment) (conf : AppConf) : Entry := ⟨state.next, conf, none⟩

/-- A new application goes to the heads of both lists. -/
def start (root : Bool) (state : Deployment) (name : List UInt8)
    (file : Option (List AppNode)) : Deployment × Outcome :=
  match readNew root state name file with
  | none => (state, .refused)
  | some conf =>
      (appInsert { state with list := state.entryOf conf :: state.list, next := state.next + 1 }
        (state.entryOf conf), .accepted)

/-- `wr_app_add_cb`. -/
def addCb (root : Bool) (state : Deployment) (name : List UInt8)
    (file : Option (List AppNode)) : Option (Deployment × Outcome) :=
  match state.exist name with
  | none => none
  | some (some _) => some (state, .refused)
  | some none => some (start root state name file)

/-- `wr_app_reload_cb`. -/
def reloadCb (root : Bool) (state : Deployment) (name : List UInt8)
    (file : Option (List AppNode)) : Option (Deployment × Outcome) :=
  match state.exist name with
  | none => none
  | some none => some (start root state name file)
  | some (some app) =>
      match state.list.find? fun entry => entry.name = name,
          confAccept root state.list name file with
      | some old, some conf =>
          let list := setConf state.list old.address fun entry => { entry with new := some conf }
          -- the worker that is forked next reads the new configuration of the application
          match (Chain.node Entry.address list app.conf).bind Entry.new with
          | none => none
          | some _ => some (setRestart { state with list } app true, .accepted)
      | _, _ => some (state, .refused)

/-- `wr_app_remove`. -/
def remove (state : Deployment) (name : List UInt8) : Option (Deployment × Outcome) :=
  match search state.list name state.apps with
  | none => none
  | some (some app) =>
      some ({ state with apps := state.apps.erase app, list := confRemove state.list name },
        .accepted)
  | some none =>
      if name = staticName then
        some ({ state with staticApp := none, list := confRemove state.list name }, .accepted)
      else some (state, .refused)

/-- `wr_conf_app_update`: everything but the name is replaced. -/
def updated (entry : Entry) (new : AppConf) : Entry :=
  { entry with conf := { new with name := entry.conf.name }, new := none }

/-- `wr_app_reload`, when the first worker of a restarted application is added. -/
def restarted (state : Deployment) (name : List UInt8) : Option (Deployment × Outcome) :=
  match state.exist name with
  | none => none
  | some none => some (state, .refused)
  | some (some app) =>
      if app.restart then
        match (Chain.node Entry.address state.list app.conf).bind Entry.new with
        | none => none
        | some new =>
            let list := setConf state.list app.conf fun entry => updated entry new
            some (setRestart { state with list } app false, .accepted)
      else some (state, .refused)

/-- A restart is rolled back. -/
def abandoned (state : Deployment) (conf : Nat) : Option (Deployment × Outcome) :=
  match state.live.find? fun app => app.conf = conf with
  | none => some (state, .refused)
  | some app =>
      if app.restart then
        match Chain.node Entry.address state.list conf with
        | none => none
        | some _ =>
            let list := setConf state.list conf fun entry => { entry with new := none }
            some (setRestart { state with list } app false, .accepted)
      else some (state, .refused)

/-- One event; nothing when it touches what was freed. `root` is the user of the server. -/
def step (root : Bool) (event : Event) (state : Deployment) : Option (Deployment × Outcome) :=
  match event with
  | .add name file => state.addCb root name file
  | .remove name => state.remove name
  | .reload name file => state.reloadCb root name file
  | .restarted name => state.restarted name
  | .abandoned conf => state.abandoned conf

def perform (root : Bool) (event : Event) (state : Deployment) : Option Deployment :=
  (state.step root event).map Prod.fst

/-- The list of configurations at the start: what is left of the file, the admin panel and the
static content server, each at the head. -/
def bootList (root panel : Bool) (count : Nat) (left : List Entry) : List Entry :=
  (if root then [⟨count + 1, staticServer, none⟩] else []) ++
    ((if panel && root then [⟨count, adminPanel, none⟩] else []) ++ left)

/-- `wr_app_init`. -/
def boot (root panel : Bool) (count : Nat) (left : List Entry) : Deployment :=
  let list := bootList root panel count left
  list.foldl appInsert ⟨list, [], none, count + 2⟩

end Deployment

end Configurator
