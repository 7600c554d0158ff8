/-
The line protocol of the controller.

Each operation is one line of JSON, and the controller answers with one line: `ok` is
consent and anything else a refusal. Lines that were received but not yet read stay for
the operations that follow. `Controller.send` plays one exchange against a controller
whose answers are given as a list. What the controller receives are bytes; it takes them
apart into lines, and `Operation.ofLine?` reads a line.
-/
import PacketClassifier.Provision.Delivery
import PacketClassifier.Schema.Text
import PacketClassifier.Text.Blank
import PacketClassifier.Text.Utf8

namespace PacketClassifier

/-- The byte that ends a line. -/
def Controller.newline : UInt8 := 10

namespace Operation

/-- The line that an operation travels as. -/
def line (o : Operation) : String := o.toJson.compact

/-- What is sent for an operation: its line and the end of it. -/
def bytes (o : Operation) : Bytes := Utf8.ofString o.line ++ [Controller.newline]

/-- The operation that a line stands for. -/
def ofLine? (line : Bytes) : Option Operation :=
  (Utf8.decode? line).bind (Schema.ofText? "Operation" shape)

end Operation

namespace Controller

/-- The lines of a stream. Every line feed ends a line, and what stands after the last one
is a line unless it is empty. -/
def lines (stream : Bytes) : List Bytes :=
  let pieces := stream.splitOn newline
  let last := pieces.getLast?.getD []
  pieces.dropLast ++ (if last.isEmpty then [] else [last])

/-- The first line of what was received, with what follows it. What stands before the end
of the stream is a line too. -/
def nextLine (received : Bytes) : Bytes × Bytes :=
  (received.takeWhile (· != newline), (received.dropWhile (· != newline)).drop 1)

/-- What a line says about an operation. -/
def verdict (o : Operation) (line : Bytes) : Except StoreFault Unit :=
  match Utf8.decode? line with
  | none => .error (.io .notText)
  | some cs =>
    let reply := String.ofList (Text.trim cs)
    if reply = "ok" then .ok () else .error (.rejected o.command reply)

/-- One answer of a controller. -/
structure Reply where
  /-- What is sent. -/
  bytes : Bytes
  /-- Whether the connection ends then. -/
  closes : Bool
  deriving DecidableEq, Repr

/-- Plain consent. -/
def Reply.consent : Reply := ⟨Utf8.ofString "ok\n", false⟩

/-- A controller and the connection to it. -/
structure Session where
  /-- The answers still to come; then everything is consented to. -/
  replies : List Reply
  /-- What the controller sent and nobody read yet. -/
  inbox : Bytes
  /-- Whether the connection has ended. -/
  closed : Bool
  /-- The lines that the controller received. -/
  received : List String
  deriving Repr

namespace Session

/-- A fresh connection to a controller with the given answers. -/
def start (replies : List Reply) : Session := ⟨replies, [], false, []⟩

/-- A new connection to the same controller. -/
def reconnect (s : Session) : Session := { s with inbox := [], closed := false }

/-- The controller receives a line and answers. -/
def exchange (s : Session) (line : String) : Session :=
  let reply := s.replies.head?.getD .consent
  ⟨s.replies.tail, s.inbox ++ reply.bytes, reply.closes, s.received ++ [line]⟩

/-- The controller receives bytes and answers every line of them. -/
def write (s : Session) (bytes : Bytes) : Session :=
  (lines bytes).foldl (fun s line => s.exchange (String.ofList (Utf8.decodeLossy line))) s

end Session

/-- The store behind a connection. An operation that cannot be answered any more fails. -/
def send : Store (StateM Session) := fun o s =>
  if s.closed then (.error (.io .brokenPipe), s)
  else
    let s := s.write o.bytes
    if s.inbox.isEmpty then (.error (.io (.closed "controller")), s)
    else
      let (line, rest) := nextLine s.inbox
      (verdict o line, { s with inbox := rest })

end Controller

end PacketClassifier
