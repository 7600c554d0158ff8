/-
Fetching rulesets over a connection.

A request is a frame with a name, and its reply a frame with the binary ruleset, or with
four letters that say that there is none. `Fetch.serve` answers a whole connection, and
`Fetch.fetch` asks for one name.
-/
import PacketClassifier.Frame
import PacketClassifier.Service.Model

namespace PacketClassifier

namespace Fetch

/-- The reply where there is no ruleset of the name. -/
def notFound : Bytes := Utf8.ofString "None"

/-- The name that a request asks for; bytes that are no text are replaced. -/
def requestedName (request : Bytes) : String := String.ofList (Utf8.decodeLossy request)

/-- Answers a list of requests in order. -/
def replies (files : Files) (s : ModelService) : List Bytes → List Bytes × ModelService
  | [] => ([], s)
  | request :: requests =>
    let (found, s) := s.lookup files (requestedName request)
    let (rest, s) := replies files s requests
    (found.getD notFound :: rest, s)

/-- Writes frames up to the first payload that is too long for one. -/
def stream : List Bytes → Bytes
  | [] => []
  | payload :: payloads =>
    match Frame.encode payload with
    | .ok bytes => bytes ++ stream payloads
    | .error _ => []

/-- The requests on a connection whose other side sends the given pieces and then nothing
more. A frame that is refused ends the connection. -/
def requests (pieces : List Bytes) : List Bytes := (Frame.Decoder.fresh.feed pieces).frames

/-- Everything that is sent back on a connection. -/
def serve (files : Files) (s : ModelService) (pieces : List Bytes) : Bytes × ModelService :=
  let (payloads, s) := replies files s (requests pieces)
  (stream payloads, s)

/-- What a reply says. -/
def answer (reply : Bytes) : Option Bytes := if reply = notFound then none else some reply

/-- Reads the first reply. -/
def firstReply (received : Bytes) : Except IoFault Bytes :=
  let r := (Frame.Decoder.fresh.push received).finish
  match r.frames, r.fault with
  | reply :: _, _ => .ok reply
  | [], some fault => .error fault
  | [], none => .error (.closed "server")

/-- Asks for the ruleset of one name on a connection of its own. -/
def fetch (files : Files) (s : ModelService) (name : String) :
    Except IoFault (Option Bytes) × ModelService :=
  match Frame.encode (Utf8.ofString name) with
  | .error fault => (.error fault, s)
  | .ok request =>
    let (received, s) := serve files s [request]
    ((firstReply received).map answer, s)

/-- Makes room for a socket: a socket that was left there is removed. -/
def clear (files : Files) (path : Path) : Except IoFault Unit × Files :=
  match files.remove path with
  | .ok cleared => cleared.makeDirectories path.parent
  | .error .notFound => files.makeDirectories path.parent
  | .error fault => (.error fault, files)

end Fetch

end PacketClassifier
