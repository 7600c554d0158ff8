/-
Passing over JSON text.

What nobody asks for is passed over with less care than what is read: the text has to be
JSON, but containers may nest without limit, numbers may be of any size, and a surrogate
may stand alone.
-/
import PacketClassifier.Json.Reader

namespace PacketClassifier

namespace Json

namespace Skip

/-- What follows the closing quote of a text. -/
def text? : List Char → Option (List Char)
  | [] => none
  | '"' :: rest => some rest
  | '\\' :: 'u' :: a :: b :: c :: d :: rest =>
      if (Read.hex4? a b c d).isSome then text? rest else none
  | '\\' :: e :: rest => if (Read.escaped? e).isSome then text? rest else none
  | c :: rest => if c.toNat < 0x20 then none else text? rest

/-- Passes over a text without keeping it. -/
def unquote (cs : List Char) : Option (List Char × List Char) :=
  (text? cs).map fun rest => ([], rest)

/-- What follows a number. -/
def number? (cs : List Char) : Option (List Char) := do
  let (whole, cs) ← Read.digitRun? (if cs.head? = some '-' then cs.tail else cs)
  if whole.head? = some '0' ∧ whole.length ≠ 1 then none
  let (_, cs) ← Read.fraction? cs
  let (_, cs) ← Read.exponent? cs
  return cs

/-- What follows a document other than an array or an object. -/
def scalar? : List Char → Option (List Char)
  | 'n' :: 'u' :: 'l' :: 'l' :: rest => some rest
  | 't' :: 'r' :: 'u' :: 'e' :: rest => some rest
  | 'f' :: 'a' :: 'l' :: 's' :: 'e' :: rest => some rest
  | '"' :: rest => text? rest
  | cs => number? cs

/-- Passes over a document of at most `depth` nested containers; null stands for whatever
it is. -/
def valueWithin : (depth : Nat) → List Char → Option (Json × List Char)
  | 0, cs => (scalar? (Read.skipBlank cs)).map fun rest => (.null, rest)
  | depth + 1, cs =>
    match Read.skipBlank cs with
    | '[' :: rest => Read.array (valueWithin depth) rest
    | '{' :: rest => Read.object (Read.key? unquote) (fun _ => valueWithin depth) rest
    | cs => (scalar? cs).map fun rest => (.null, rest)

/-- Passes over a document; no text has more nested containers than characters. -/
def value (cs : List Char) : Option (Json × List Char) := valueWithin cs.length cs

end Skip

end Json

end PacketClassifier
