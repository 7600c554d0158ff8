/-
The settings of the services: where files and sockets are.

Every setting has a default. Settings that cannot be read count as none at all.
-/
import PacketClassifier.Files
import PacketClassifier.Schema.Text

namespace PacketClassifier

/-- Where files and sockets are. -/
structure Settings where
  /-- The group document that was put into effect last. -/
  groups : String
  classifiers : String
  fetchSocket : String
  controllerSocket : String
  /-- The log of changes, if it has a place of its own. -/
  log : Option String
  deriving DecidableEq, Repr

namespace Settings

/-- The settings where nothing is set. -/
def standard : Settings where
  groups := "/etc/vyatta/res-grp.json"
  classifiers := "/etc/vyatta/resources-gpc.json"
  fetchSocket := "/tmp/gpc_update.socket"
  controllerSocket := "/run/vplane/cstore.socket"
  log := none

/-- The fields of the settings. -/
def shape : Schema.Shape Settings :=
  Settings.mk <$> .default "res_grp_config_file" Schema.path standard.groups
    <*> .default "gpc_config_file" Schema.path standard.classifiers
    <*> .default "fetch_socket" Schema.path standard.fetchSocket
    <*> .default "controller_socket" Schema.path standard.controllerSocket
    <*> .default "audit_log" (Schema.nullable Schema.path) standard.log

/-- The name of the record in mismatches. -/
def recordName : String := "AppConfig"

/-- Reads settings from a document. -/
def reader : Schema.Reader Settings := Schema.record recordName shape

/-- The document of settings. -/
def toJson (s : Settings) : Json :=
  .obj [("res_grp_config_file", .str s.groups), ("gpc_config_file", .str s.classifiers),
    ("fetch_socket", .str s.fetchSocket), ("controller_socket", .str s.controllerSocket),
    ("audit_log", match s.log with
      | some path => .str path
      | none => .null)]

/-- Whether two settings name the same places. -/
def sameAs (s t : Settings) : Bool :=
  let same (name other : String) : Bool := (Path.ofText name).sameAs (.ofText other)
  same s.groups t.groups && same s.classifiers t.classifiers
    && same s.fetchSocket t.fetchSocket
    && same s.controllerSocket t.controllerSocket && (match s.log, t.log with
      | some name, some other => same name other
      | none, none => true
      | _, _ => false)

/-- The settings that a text stands for. -/
def ofText? (text : List Char) : Option Settings := Schema.ofText? recordName shape text

/-- The settings in a file, if there is one. -/
def load (files : Files) (path : Option Path) : Settings :=
  match path with
  | none => standard
  | some path => ((files.readText path).toOption.bind ofText?).getD standard

/-- Where the log is, given the directory for what the program keeps about itself. -/
def logPath (s : Settings) (stateDirectory : String) : String :=
  s.log.getD (stateDirectory ++ "/audit.log")

end Settings

end PacketClassifier
