/-
What the commands do.

A command works on the files it is given and prints something, or fails. Changes are
logged, whether they succeed or not; a command whose input cannot be read changes nothing
and logs nothing.
-/
import PacketClassifier.Audit
import PacketClassifier.Command.Arguments
import PacketClassifier.Fetch
import PacketClassifier.Protocol.Registry
import PacketClassifier.Ruleset.Text
import PacketClassifier.Service.Group
import PacketClassifier.Settings

namespace PacketClassifier

/-- What a command has to work with. -/
structure Environment where
  settings : Settings
  /-- The directory for what the program keeps about itself. -/
  stateDirectory : String
  registry : Protocol.Registry
  input : Bytes
  now : Instant
  deriving Repr

/-- The way to the controller. -/
structure Uplink (m : Type → Type) where
  /-- Opens a connection to the socket of the given path. -/
  connect : String → m (Except IoFault Unit)
  store : Store m

/-- What comes of a command. -/
structure Outcome where
  /-- What is printed, or why the command failed. -/
  result : Except Error Bytes
  files : Files
  deriving Repr

/-- How the program ends. -/
inductive ExitStatus where
  | success
  | failure
  /-- The arguments say nothing that can be done. -/
  | misuse
  | unreachable
  deriving DecidableEq, Repr

/-- The number that stands for an ending. -/
def ExitStatus.code : ExitStatus → UInt8
  | success => 0
  | failure => 1
  | misuse => 2
  | unreachable => 3

namespace Outcome

/-- How the program ends after a command. -/
def status (o : Outcome) : ExitStatus :=
  match o.result with
  | .ok _ => .success
  | .error e => if e.isUnreachable then .unreachable else .failure

/-- What is printed; a failure prints nothing. -/
def output (o : Outcome) : Bytes := o.result.toOption.getD []

end Outcome

namespace Command

/-- A text and the end of the line. -/
def printedLine (text : String) : Bytes := Utf8.ofString (text ++ "\n")

/-- A document in the layout for people, and the end of the line. -/
def printedDocument (doc : Json) : Bytes := printedLine doc.pretty

/-- The document in a file, or on standard input where no file is named. -/
def readInput (env : Environment) (files : Files) (input : Option String) :
    Except Error Json := do
  let text ← match input with
    | some name => (files.readText (Path.ofText name)).mapError Error.io
    | none => match Utf8.decode? env.input with
      | some text => .ok text
      | none => .error (.io .notText)
  match Json.ofText? text with
  | some doc => return doc
  | none => .error .notJson

/-- Logs a change that came with a number and its result. -/
def logged {α : Type} (env : Environment) (files : Files) (change : Audit.Change)
    (count : Nat) (result : Except Error α) : Files :=
  let event := match result with
    | .ok _ => Audit.Event.counting env.now change count none true
    | .error e => Audit.Event.counting env.now change count (some e.message) false
  Audit.append files (Path.ofText (env.settings.logPath env.stateDirectory)) event

/-- The service for the group document. -/
def groups (env : Environment) : GroupService := .ofPath (Path.ofText env.settings.groups)

/-- Where packet classifiers are kept. -/
def classifiersPath (env : Environment) : Path := Path.ofText env.settings.classifiers

/-- Connects to the controller and puts a document into effect. -/
def deliverGroups {m : Type → Type} [Monad m] (up : Uplink m) (env : Environment)
    (files : Files) (doc : Json) : m (Except Error Nat × Files) := do
  match ← up.connect env.settings.controllerSocket with
  | .error fault =>
      pure (.error (.store (.unreachable env.settings.controllerSocket fault)), files)
  | .ok () =>
    let (result, _, files) ← (groups env).commit up.store files doc
    pure (result, files)

/-- Puts a document into effect and logs it. -/
def commitGroups {m : Type → Type} [Monad m] (up : Uplink m) (env : Environment)
    (files : Files) (doc : Json) : m Outcome := do
  let (result, files) ← deliverGroups up env files doc
  pure ⟨result.map fun _ => [], logged env files .commit (result.toOption.getD 0) result⟩

/-- The operations that a commit would take, one a line. -/
def printedPlan (env : Environment) (files : Files) (doc : Json) : Bytes :=
  ((groups env).plan files doc).operations.flatMap fun o => printedLine o.text

/-- Takes over packet classifiers and logs it. -/
def takeClassifiers (env : Environment) (files : Files) (doc : Json) : Outcome :=
  let (result, service, files) := (ModelService.ofPath (classifiersPath env)).set files doc
  ⟨result.map fun _ => [],
    logged env files .classifiers ((service.compiled.map Model.size).getD 0) result⟩

/-- The compiled group or classifier of a name. -/
def compiled (env : Environment) (files : Files) (name : String) : Except Error Classifier :=
  match (ModelService.start files (classifiersPath env)).compiled.bind (·.get? name) with
  | some c => .ok c
  | none => .error (.config "compile" (.unknownName name))

/-- A compiled group or classifier, printed. -/
def printed (registry : Protocol.Registry) (form : OutputForm) (c : Classifier) : Bytes :=
  match form with
  | .hex => printedLine (Hex.text c.encode)
  | .text => Utf8.ofString (c.ruleset.text registry)
  | .raw => c.encode

/-- Answers the connection at standard input, once a socket left behind is cleared away. -/
def answerRequests (env : Environment) (files : Files) (socket : Option String) : Outcome :=
  match Fetch.clear files (Path.ofText (socket.getD env.settings.fetchSocket)) with
  | (.error fault, files) => ⟨.error (.io fault), files⟩
  | (.ok (), files) =>
    ⟨.ok (Fetch.serve files (ModelService.start files (classifiersPath env)) [env.input]).1,
      files⟩

/-- The name of a protocol given by number, or the number of one given by name. -/
def protocolText (registry : Protocol.Registry) (value : String) : String :=
  match Numeral.word? value with
  | some number => registry.nameOf number
  | none => Numeral.text (registry.numberOf value).toNat

/-- Does what a command asks for. -/
def run {m : Type → Type} [Monad m] (up : Uplink m) (env : Environment) (files : Files) :
    Command → m Outcome
  | .commit input dryRun =>
    match readInput env files input with
    | .error e => pure ⟨.error e, files⟩
    | .ok doc =>
      if dryRun then pure ⟨.ok (printedPlan env files doc), files⟩
      else commitGroups up env files doc
  | .showGroups => pure ⟨.ok (printedDocument ((groups env).document files)), files⟩
  | .showState => pure ⟨.ok (printedDocument (groups env).state), files⟩
  | .checkGroups input | .checkClassifiers input =>
    pure ⟨(readInput env files input).map fun _ => [], files⟩
  | .setClassifiers input =>
    match readInput env files input with
    | .error e => pure ⟨.error e, files⟩
    | .ok doc => pure (takeClassifiers env files doc)
  | .showClassifiers =>
    pure ⟨.ok (printedDocument ((ModelService.ofPath (classifiersPath env)).get files).1),
      files⟩
  | .compile name form =>
      pure ⟨(compiled env files name).map (printed env.registry form), files⟩
  | .serve socket => pure (answerRequests env files socket)
  | .protocol value => pure ⟨.ok (printedLine (protocolText env.registry value)), files⟩

end Command

end PacketClassifier
