/-
The command line.

A command works on a picture of the files that concern it. Here the picture is taken, the
command is run, and what it changed is carried over to the machine: a file that only grew
is appended to, and any other is replaced as a whole.
-/
import PacketClassifier.Command.Run
import PacketClassifier.Provision.Controller
import Std.Time.DateTime.Timestamp

namespace PacketClassifier

/-- What a failure of the machine means. -/
def IoFault.ofMachine : IO.Error → IoFault
  | .noFileOrDirectory _ _ _ => .notFound
  | .alreadyExists _ _ _ => .alreadyExists
  | .inappropriateType _ 20 _ => .notDirectory
  | .inappropriateType _ 21 _ => .isDirectory
  | .resourceBusy _ _ => .busy
  | .noSuchThing _ 6 _ => .noDevice
  | .resourceVanished _ _ => .brokenPipe
  | e => .other e.toString

/-- The files that a command is concerned with, besides its settings. -/
def Command.fileNames (settings : Settings) (log : String) : Command → List String
  | .commit input _ => input.toList ++ [settings.groups, settings.groups ++ ".sha256", log]
  | .showGroups => [settings.groups]
  | .checkGroups input | .checkClassifiers input => input.toList
  | .setClassifiers input =>
      input.toList ++ [settings.classifiers, settings.classifiers ++ ".sha256", log]
  | .showClassifiers | .compile _ _ => [settings.classifiers]
  | .serve socket => [settings.classifiers, socket.getD settings.fetchSocket]
  | .showState | .protocol _ => []

/-- Whether a command reads what stands on standard input. -/
def Command.readsStandardInput : Command → Bool
  | .commit none _ | .checkGroups none | .checkClassifiers none => true
  | .setClassifiers none | .serve _ => true
  | _ => false

namespace Machine

/-- A picture with nothing in it but the working directory. -/
def bare : IO Files := do
  let here := Path.ofText (← IO.currentDir).toString
  return { (Files.empty.makeDirectories here).2 with working := here.names }

/-- Adds to a picture what the machine has under a name, and the directories that lead
there. -/
def observe (files : Files) (name : String) : IO Files := do
  let path := Path.ofText name
  let mut files := files
  for length in List.range path.pieces.length do
    let part := { path with pieces := path.pieces.take (length + 1) }
    try
      let content ← IO.FS.readBinFile part.text
      files := (files.write part content.toList).toOption.getD files
    catch e =>
      if IoFault.ofMachine e = .isDirectory then
        files := (files.makeDirectories part).2
  return files

/-- A picture of what the machine has under several names. -/
def observeAll (names : List String) : IO Files := do names.foldlM observe (← bare)

/-- Replaces a file as a whole, so that nobody sees half of it. -/
def replace (name : String) (content : Bytes) : IO Unit := do
  let written := name ++ ".new"
  IO.FS.writeBinFile written ⟨content.toArray⟩
  IO.FS.rename written name

/-- Appends to a file. -/
def append (name : String) (content : Bytes) : IO Unit := do
  let file ← IO.FS.Handle.mk name .append
  file.write ⟨content.toArray⟩

/-- Carries over to the machine what became of the file under a name. -/
def carryOver (before after : Files) (name : String) : IO Unit := do
  let path := Path.ofText name
  match (before.read path).toOption, (after.read path).toOption with
  | some _, none => IO.FS.removeFile name
  | old, some new =>
    let old := old.getD []
    if old ≠ new ∨ (before.node path).toOption.isNone then
      unless path.parent.text.isEmpty do IO.FS.createDirAll path.parent.text
      if ¬ old.isEmpty ∧ old.isPrefixOf new then append name (new.drop old.length)
      else replace name new
  | none, none => pure ()

/-- The text of a file, empty where it cannot be read. -/
def textOrEmpty (name : String) : IO (List Char) := do
  try
    return (Utf8.decode? (← IO.FS.readBinFile name).toList).getD []
  catch _ => return []

/-- Everything on standard input. -/
def standardInput : IO Bytes := do
  let input ← IO.getStdin
  let mut content : Bytes := []
  repeat
    let piece ← input.read 65536
    if piece.isEmpty then break
    content := content ++ piece.toList
  return content

/-- The directory for what the program keeps about itself. -/
def stateDirectory : IO String := do
  match ← IO.getEnv "XDG_STATE_HOME" with
  | some directory => return directory ++ "/gpcc"
  | none => return (← IO.getEnv "HOME").getD "" ++ "/.local/state/gpcc"

/-- The time of the machine. -/
def now : IO Instant := do
  let time ← Std.Time.Timestamp.now
  return ⟨time.val.second.val, time.val.nano.val.toNat⟩

/-- The way to a controller: a line is written to the file at its path, and a line is read
from it. -/
def uplink : IO (Uplink IO) := do
  let connection ← IO.mkRef (none : Option IO.FS.Handle)
  let connect (name : String) : IO (Except IoFault Unit) := do
    try
      connection.set (some (← IO.FS.Handle.mk name .readWrite))
      return .ok ()
    catch e => return .error (.ofMachine e)
  let store : Store IO := fun o => do
    match ← connection.get with
    | none => return .error (.io .brokenPipe)
    | some handle =>
      try
        handle.write ⟨o.bytes.toArray⟩
        handle.flush
        let reply ← handle.getLine
        if reply.isEmpty then return .error (.io (.closed "controller"))
        return Controller.verdict o (Utf8.ofString reply)
      catch e => return .error (.io (.ofMachine e))
  return ⟨connect, store⟩

/-- Reads what a command has to work with. -/
def environment (invocation : Invocation) : IO Environment := do
  let files ← observeAll invocation.config.toList
  let settings := Settings.load files (invocation.config.map Path.ofText)
  let registry := Protocol.Registry.ofText (← textOrEmpty "/etc/protocols")
  let input ← if invocation.command.readsStandardInput then standardInput else pure []
  return ⟨settings, ← stateDirectory, registry, input, ← now⟩

/-- Runs a command on the machine. -/
def run (invocation : Invocation) : IO ExitStatus := do
  let env ← environment invocation
  let names := invocation.command.fileNames env.settings
    (env.settings.logPath env.stateDirectory)
  let before ← observeAll names
  let outcome ← Command.run (← uplink) env before invocation.command
  for name in names do
    carryOver before outcome.files name
  (← IO.getStdout).write ⟨outcome.output.toArray⟩
  match outcome.result with
  | .ok _ => pure ()
  | .error e => IO.eprintln e.message
  return outcome.status

/-- What is said about arguments that say nothing that can be done. -/
def usage : String :=
  "usage: gpcc [--config FILE] [--debug] COMMAND\n"
    ++ "commands: commit [-i FILE] [--dry-run], get-config, get-state, validate [-i FILE], "
    ++ "gpc-set [-i FILE],\n"
    ++ "  gpc-get, gpc-check [-i FILE], compile NAME [-f hex|text|raw], serve [-s PATH], "
    ++ "proto NAME|NUMBER"

end Machine

end PacketClassifier

open PacketClassifier in
/-- Does what the arguments ask for. -/
def main (arguments : List String) : IO UInt32 := do
  match Invocation.ofArguments? arguments with
  | some invocation => return (← Machine.run invocation).code.toUInt32
  | none =>
    IO.eprintln Machine.usage
    return ExitStatus.misuse.code.toUInt32
