/-
Everything that can go wrong, and the words for it.

`Error` has one constructor for each kind of failure. Kinds that belong to one part of the
library carry that part's own description. A `Fault` in a value says nothing about where
it stands; the reader of a rule or a group adds that.
-/
import PacketClassifier.Json.Printer
import PacketClassifier.Schema.Shape
import PacketClassifier.Wire.Ruleset

namespace PacketClassifier

/-- What is wrong with a value. -/
inductive Fault where
  | notObject
  | notString
  /-- It is no number of 32 bits, neither as a number nor as a string. -/
  | notUnsigned (value : Json)
  | portRange (port : UInt32)
  | badHost (text : String)
  | badNetwork (text : String)
  | noGroupName
  /-- The values of a group are no list. -/
  | notList
  /-- No group or classifier has this name. -/
  | unknownName (name : String)
  deriving Repr

/-- The words for it. -/
def Fault.message : Fault → String
  | notObject => "expected an object"
  | notString => "expected a string"
  | notUnsigned value => "expected an unsigned number, got " ++ value.compact
  | portRange port => "port " ++ Numeral.text port.toNat ++ " out of range"
  | badHost text => "invalid host '" ++ text ++ "': invalid IP address syntax"
  | badNetwork text => "invalid prefix '" ++ text ++ "': invalid address: " ++ text
  | noGroupName => "missing group-name"
  | notList => "dscp must be a list"
  | unknownName name => "no group or classifier named '" ++ name ++ "'"

/-- Why reading or writing outside the program failed. -/
inductive IoFault where
  | notFound
  | alreadyExists
  | notDirectory
  | isDirectory
  /-- The name is taken by a directory that is in use. -/
  | busy
  | nameTooLong
  /-- Nothing can be read from a socket as from a file. -/
  | noDevice
  | refused
  | invalidArgument
  | brokenPipe
  | zeroInPath
  /-- The path of a socket holds a zero byte. -/
  | zeroInAddress
  /-- The path of a socket is longer than an address can be. -/
  | addressTooLong
  /-- The bytes that were read are no text. -/
  | notText
  /-- The other side, named here, ended the connection instead of answering. -/
  | closed (peer : String)
  /-- A frame announces more bytes than allowed. -/
  | frameTooLong (length limit : Nat)
  /-- A payload is longer than any frame can announce. -/
  | payloadTooLong
  | frameCutOff
  | other (words : String)
  deriving DecidableEq, Repr

/-- The words of the system, or the words for it where there are none. -/
def IoFault.message : IoFault → String
  | notFound => "No such file or directory (os error 2)"
  | alreadyExists => "File exists (os error 17)"
  | notDirectory => "Not a directory (os error 20)"
  | isDirectory => "Is a directory (os error 21)"
  | busy => "Device or resource busy (os error 16)"
  | nameTooLong => "File name too long (os error 36)"
  | noDevice => "No such device or address (os error 6)"
  | refused => "Connection refused (os error 111)"
  | invalidArgument => "Invalid argument (os error 22)"
  | brokenPipe => "Broken pipe (os error 32)"
  | zeroInPath => "file name contained an unexpected NUL byte"
  | zeroInAddress => "paths must not contain interior null bytes"
  | addressTooLong => "path must be shorter than SUN_LEN"
  | notText => "stream did not contain valid UTF-8"
  | closed peer => peer ++ " closed the connection"
  | frameTooLong length limit =>
    "frame of " ++ Numeral.text length ++ " bytes exceeds " ++ Numeral.text limit
  | payloadTooLong => "frame too large"
  | frameCutOff => "bytes remaining on stream"
  | other words => words

/-- Why a store did not take an operation. -/
inductive StoreFault where
  /-- There is no store to talk to. -/
  | unreachable (path : String) (cause : IoFault)
  /-- The store answered with something else than consent. -/
  | rejected (command reply : String)
  | io (cause : IoFault)
  deriving DecidableEq, Repr

/-- The words for it, with those of what lies behind it. -/
def StoreFault.message : StoreFault → String
  | unreachable path cause => "controller unreachable at " ++ path ++ ": " ++ cause.message
  | rejected command reply => "controller rejected '" ++ command ++ "': " ++ reply
  | io cause => "controller I/O failed: " ++ cause.message

/-- Why the program failed. -/
inductive Error where
  | io (cause : IoFault)
  | notJson
  /-- A document has not the form of a record. -/
  | mismatch (mismatch : Schema.Mismatch)
  /-- A value in a document is wrong. -/
  | config (context : String) (fault : Fault)
  | store (cause : StoreFault)
  /-- A document to be kept is no object. -/
  | notAnObject
  | wire (problem : Wire.Problem)
  deriving Repr

namespace Error

/-- The words for a failure, with those of what lies behind it. -/
def message : Error → String
  | io cause => "I/O error: " ++ cause.message
  | notJson => "JSON error: not a JSON text"
  | mismatch m => "JSON error: " ++ m.message
  | config context fault => "Config error in " ++ context ++ ": " ++ fault.message
  | store cause => "Store error: " ++ cause.message
  | notAnObject => "Snapshot error: Snapshot corrupted: root is not a JSON object"
  | wire problem => "Wire error: " ++ problem.message

/-- Whether the failure is that there is no store to talk to. -/
def isUnreachable : Error → Bool
  | store (.unreachable _ _) => true
  | _ => false

end Error

/-- Reads a record, with a mismatch as the failure. -/
def Schema.read {α : Type} (reader : Schema.Reader α) (j : Json) : Except Error α :=
  match reader j with
  | .ok a => .ok a
  | .error m => .error (.mismatch m)

end PacketClassifier
