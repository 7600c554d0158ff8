/-
The arguments of the command line.

First stands the name of a command, with options before and after it. An option is a long
word behind two dashes, or one letter behind one dash; its value is attached, or the next
argument. After two dashes alone everything is an operand. `Invocation.ofArguments?` reads
the arguments, and refuses whatever is unknown, given twice, missing or too much.
-/
namespace PacketClassifier

/-- How a compiled ruleset is printed. -/
inductive OutputForm where
  | hex
  | text
  | raw
  deriving DecidableEq, Repr

/-- The form that a word asks for. -/
def OutputForm.ofName? (name : String) : Option OutputForm :=
  [("hex", hex), ("text", text), ("raw", raw)].lookup name

/-- What the program is asked to do. -/
inductive Command where
  /-- Put a group document into effect, or only show how. -/
  | commit (input : Option String) (dryRun : Bool)
  /-- Show the group document that was put into effect last. -/
  | showGroups
  | showState
  | checkGroups (input : Option String)
  /-- Take over a document of packet classifiers. -/
  | setClassifiers (input : Option String)
  | showClassifiers
  | checkClassifiers (input : Option String)
  /-- Print the ruleset of a group or classifier. -/
  | compile (name : String) (form : OutputForm)
  | serve (socket : Option String)
  /-- Print the name of a protocol number, or the number of a name. -/
  | protocol (value : String)
  deriving DecidableEq, Repr

/-- An option: its long word, its letter if it has one, and whether a value goes with it. -/
structure CommandOption where
  name : String
  letter : Option Char
  valued : Bool
  deriving DecidableEq, Repr

/-- Options with their values, and operands. -/
structure Arguments where
  /-- The options by their long words; an option without a value has an empty one. -/
  options : List (String × String)
  operands : List String
  deriving DecidableEq, Repr

namespace Arguments

/-- Puts an option in front. -/
def consOption (option : CommandOption) (value : String) (a : Arguments) : Arguments :=
  { a with options := (option.name, value) :: a.options }

/-- Puts an operand in front. -/
def consOperand (operand : String) (a : Arguments) : Arguments :=
  { a with operands := operand :: a.operands }

/-- Whether an argument has the form of an option; a dash alone has not. -/
def looksLikeOption (argument : String) : Bool :=
  argument.toList.head? == some '-' && argument != "-"

/-- What is attached to a long word, behind the first equals sign. -/
def attachedToName? (cs : List Char) : Option String :=
  match cs.dropWhile (· != '=') with
  | [] => none
  | _ :: value => some (String.ofList value)

/-- What is attached to a letter, an equals sign in front left out. -/
def attachedToLetter? : List Char → Option String
  | [] => none
  | '=' :: value => some (String.ofList value)
  | value => some (String.ofList value)

/-- The option that an argument names, with the value attached to it. -/
def option? (known : List CommandOption) (argument : String) :
    Option (CommandOption × Option String) :=
  match argument.toList with
  | '-' :: '-' :: word =>
    (known.find? fun o => o.name == String.ofList (word.takeWhile (· != '='))).map fun o =>
      (o, attachedToName? word)
  | '-' :: letter :: attached =>
    (known.find? fun o => o.letter == some letter).map fun o =>
      (o, attachedToLetter? attached)
  | _ => none

/-- Reads arguments. With `leading`, everything from the first operand on is left as
operands. -/
def read (known : List CommandOption) (leading : Bool) : List String → Option Arguments
  | [] => some ⟨[], []⟩
  | argument :: rest =>
    if argument = "--" then some ⟨[], if leading then argument :: rest else rest⟩
    else if looksLikeOption argument then
      match option? known argument with
      | none => none
      | some (option, some value) =>
        if option.valued then (read known leading rest).map (consOption option value)
        else none
      | some (option, none) =>
        if option.valued then
          match rest with
          | [] => none
          | value :: rest =>
            if looksLikeOption value then none
            else (read known leading rest).map (consOption option value)
        else (read known leading rest).map (consOption option "")
    else if leading then some ⟨[], argument :: rest⟩
    else (read known leading rest).map (consOperand argument)

/-- Whether no option is given twice. -/
def distinct (a : Arguments) : Bool :=
  a.options.all fun o => (a.options.map (·.1)).count o.1 ≤ 1

/-- Whether an option was given. -/
def has (a : Arguments) (name : String) : Bool := (a.options.lookup name).isSome

/-- The file that an option names, which cannot be without a name. -/
def file? (a : Arguments) (name : String) : Option (Option String) :=
  match a.options.lookup name with
  | none => some none
  | some "" => none
  | some value => some (some value)

/-- The only operand, if there is exactly one. -/
def single? (a : Arguments) : Option String :=
  match a.operands with
  | [operand] => some operand
  | _ => none

end Arguments

namespace Command

/-- The options of every command. -/
def globalOptions : List CommandOption := [⟨"config", none, true⟩, ⟨"debug", none, false⟩]

/-- The option for a file to read from. -/
def inputOption : CommandOption := ⟨"input", some 'i', true⟩

/-- The options of a command of its own; none where there is no command of the name. -/
def options? : String → Option (List CommandOption)
  | "commit" => some [inputOption, ⟨"dry-run", none, false⟩]
  | "validate" | "gpc-set" | "gpc-check" => some [inputOption]
  | "get-config" | "get-state" | "gpc-get" | "proto" => some []
  | "compile" => some [⟨"format", some 'f', true⟩]
  | "serve" => some [⟨"socket", some 's', true⟩]
  | _ => none

/-- The command of a name with its arguments. -/
def ofArguments? (name : String) (a : Arguments) : Option Command :=
  match name with
  | "compile" => do
    return .compile (← a.single?)
      (← OutputForm.ofName? ((a.options.lookup "format").getD "hex"))
  | "proto" => do return .protocol (← a.single?)
  | _ =>
    if a.operands.isEmpty then
      match name with
      | "commit" => do return .commit (← a.file? "input") (a.has "dry-run")
      | "get-config" => some .showGroups
      | "get-state" => some .showState
      | "validate" => do return .checkGroups (← a.file? "input")
      | "gpc-set" => do return .setClassifiers (← a.file? "input")
      | "gpc-get" => some .showClassifiers
      | "gpc-check" => do return .checkClassifiers (← a.file? "input")
      | "serve" => do return .serve (← a.file? "socket")
      | _ => none
    else none

end Command

/-- Everything that the arguments say. -/
structure Invocation where
  config : Option String
  /-- Whether more is told about the work. -/
  debug : Bool
  command : Command
  deriving DecidableEq, Repr

/-- Reads the arguments. An option for every command may stand before and after the
command's name, and counts where it stands last. -/
def Invocation.ofArguments? (arguments : List String) : Option Invocation := do
  let outer ← Arguments.read Command.globalOptions true arguments
  match outer.operands with
  | [] => none
  | name :: rest =>
    let inner ← Arguments.read (Command.globalOptions ++ (← Command.options? name)) false rest
    let command ← Command.ofArguments? name inner
    let config := (← inner.file? "config").or (← outer.file? "config")
    if outer.distinct && inner.distinct then
      return ⟨config, outer.has "debug" || inner.has "debug", command⟩
    else none

end PacketClassifier
