/-
Reading JSON text.

Every reader takes the characters that are left and gives back what it read with the
characters after it. `Json.Read.value depth` accepts at most `depth` nested containers;
the readers of arrays and objects are told how to read an item, so the depth alone decides
the recursion. `Json.ofText?` reads a whole text, at most 127 containers deep, and settles
repeated keys.
-/
import PacketClassifier.Binary64.Decimal
import PacketClassifier.Json.Basic

namespace PacketClassifier

namespace Json

namespace Read

/-- Whether a character may stand between tokens. -/
def isBlank (c : Char) : Bool := c == ' ' || c == '\n' || c == '\t' || c == '\r'

/-- Drops the blanks in front. -/
def skipBlank (cs : List Char) : List Char := cs.dropWhile isBlank

/-- The value of four hexadecimal digits. -/
def hex4? (a b c d : Char) : Option Nat := Numeral.hexValue? [a, b, c, d]

/-- The character that a one-letter escape stands for. -/
def escaped? (c : Char) : Option Char :=
  if c = '"' ∨ c = '\\' ∨ c = '/' then some c
  else if c = 'b' then some (Char.ofNat 8)
  else if c = 'f' then some (Char.ofNat 12)
  else if c = 'n' then some '\n'
  else if c = 'r' then some '\r'
  else if c = 't' then some '\t'
  else none

/-- Puts a character in front of the text read so far. -/
def consText (c : Char) (r : Option (List Char × List Char)) :
    Option (List Char × List Char) :=
  r.map fun (text, rest) => (c :: text, rest)

/-- The text up to the closing quote. A pair of surrogates is one character, and a
surrogate alone is refused like any character below the space. -/
def unquote : List Char → Option (List Char × List Char)
  | [] => none
  | '"' :: rest => some ([], rest)
  | '\\' :: 'u' :: a :: b :: c :: d :: rest =>
    match hex4? a b c d with
    | none => none
    | some n =>
      if 0xD800 ≤ n ∧ n ≤ 0xDBFF then
        match rest with
        | '\\' :: 'u' :: e :: f :: g :: h :: rest =>
          match hex4? e f g h with
          | none => none
          | some m =>
            if 0xDC00 ≤ m ∧ m ≤ 0xDFFF then
              consText (Char.ofNat (0x10000 + (n - 0xD800) * 1024 + (m - 0xDC00)))
                (unquote rest)
            else none
        | _ => none
      else if 0xDC00 ≤ n ∧ n ≤ 0xDFFF then none
      else consText (Char.ofNat n) (unquote rest)
  | '\\' :: e :: rest =>
    match escaped? e with
    | none => none
    | some c => consText c (unquote rest)
  | c :: rest => if c.toNat < 0x20 then none else consText c (unquote rest)

/-- A run of digits, at least one, and what follows it. -/
def digitRun? (cs : List Char) : Option (List Char × List Char) :=
  let run := cs.takeWhile Numeral.isDigit
  if run.isEmpty then none else some (run, cs.dropWhile Numeral.isDigit)

/-- The value of a run of digits. -/
def runValue (run : List Char) : Nat := (Numeral.value? run).getD 0

/-- The digits after a point, if there is one. -/
def fraction? : List Char → Option (List Char × List Char)
  | '.' :: cs => digitRun? cs
  | cs => some ([], cs)

/-- A signed exponent, if there is one. -/
def exponent? : List Char → Option (Option Int × List Char)
  | c :: cs =>
    if c = 'e' ∨ c = 'E' then
      match cs with
      | '-' :: cs => (digitRun? cs).map fun (run, rest) =>
          (some (-(runValue run : Int)), rest)
      | '+' :: cs => (digitRun? cs).map fun (run, rest) => (some (runValue run : Int), rest)
      | cs => (digitRun? cs).map fun (run, rest) => (some (runValue run : Int), rest)
    else some (none, c :: cs)
  | [] => some (none, [])

/-- Whether an integer fits 64 bits, with a sign if it is negative. There is no negative
zero among them. -/
def fits64 (negative : Bool) (n : Nat) : Bool :=
  if negative then decide (0 < n ∧ n ≤ 0x8000000000000000)
  else decide (n < 0x10000000000000000)

/-- The document of a number's parts: an integer that fits 64 bits if there is neither
point nor exponent, a floating-point number otherwise, which must not overflow. -/
def numberOf? (negative : Bool) (whole fraction : List Char) (exponent : Option Int) :
    Option Json :=
  let n := runValue whole
  if fraction.isEmpty ∧ exponent.isNone ∧ fits64 negative n then
    some (.int (if negative then -(n : Int) else n))
  else
    (Binary64.ofDecimal? negative (runValue (whole ++ fraction))
      (exponent.getD 0 - fraction.length)).map Json.real

/-- A number without its sign; a leading zero stands alone before point or exponent. -/
def unsigned? (negative : Bool) (cs : List Char) : Option (Json × List Char) := do
  let (whole, cs) ← digitRun? cs
  if whole.head? = some '0' ∧ whole.length ≠ 1 then none
  let (fraction, cs) ← fraction? cs
  let (exponent, cs) ← exponent? cs
  let number ← numberOf? negative whole fraction exponent
  return (number, cs)

/-- A number, with what follows it. -/
def number? : List Char → Option (Json × List Char)
  | '-' :: cs => unsigned? true cs
  | cs => unsigned? false cs

/-- A document other than an array or an object. -/
def scalar? : List Char → Option (Json × List Char)
  | 'n' :: 'u' :: 'l' :: 'l' :: rest => some (.null, rest)
  | 't' :: 'r' :: 'u' :: 'e' :: rest => some (.bool true, rest)
  | 'f' :: 'a' :: 'l' :: 's' :: 'e' :: rest => some (.bool false, rest)
  | '"' :: rest => (unquote rest).map fun (text, rest) => (.str (String.ofList text), rest)
  | cs => number? cs

/-- The items of an array up to its end. The first text is one that is at least as long:
it bounds how many items there can be. -/
def items (item : List Char → Option (Json × List Char)) :
    (bound : List Char) → List Char → Option (List Json × List Char)
  | [], _ => none
  | _ :: bound, cs =>
    match item cs with
    | none => none
    | some (x, rest) =>
      match skipBlank rest with
      | ',' :: rest => (items item bound rest).map fun (xs, rest) => (x :: xs, rest)
      | ']' :: rest => some ([x], rest)
      | _ => none

/-- A key and the colon after it, given what reads the text behind the opening quote. -/
def key? (unquote : List Char → Option (List Char × List Char)) (cs : List Char) :
    Option (String × List Char) :=
  match skipBlank cs with
  | '"' :: rest =>
    match unquote rest with
    | none => none
    | some (text, rest) =>
      match skipBlank rest with
      | ':' :: rest => some (String.ofList text, rest)
      | _ => none
  | _ => none

/-- The members of an object up to its end, with a bound as for items. How a value is read
may depend on its key. -/
def members (key : List Char → Option (String × List Char))
    (item : String → List Char → Option (Json × List Char)) :
    (bound : List Char) → List Char → Option (Members × List Char)
  | [], _ => none
  | _ :: bound, cs =>
    match key cs with
    | none => none
    | some (k, rest) =>
      match item k rest with
      | none => none
      | some (v, rest) =>
        match skipBlank rest with
        | ',' :: rest => (members key item bound rest).map fun (ms, rest) =>
            ((k, v) :: ms, rest)
        | '}' :: rest => some ([(k, v)], rest)
        | _ => none

/-- What follows an opening bracket. -/
def array (item : List Char → Option (Json × List Char)) (cs : List Char) :
    Option (Json × List Char) :=
  match skipBlank cs with
  | ']' :: rest => some (.arr [], rest)
  | _ => (items item cs cs).map fun (xs, rest) => (.arr xs, rest)

/-- What follows an opening brace. -/
def object (key : List Char → Option (String × List Char))
    (item : String → List Char → Option (Json × List Char)) (cs : List Char) :
    Option (Json × List Char) :=
  match skipBlank cs with
  | '}' :: rest => some (.obj [], rest)
  | _ => (members key item cs cs).map fun (ms, rest) => (.obj ms, rest)

/-- A document of at most `depth` nested containers, with repeated keys as they stand. -/
def value : (depth : Nat) → List Char → Option (Json × List Char)
  | 0, cs => scalar? (skipBlank cs)
  | depth + 1, cs =>
    match skipBlank cs with
    | '[' :: rest => array (value depth) rest
    | '{' :: rest => object (key? unquote) (fun _ => value depth) rest
    | cs => scalar? cs

/-- What was read, if only blanks follow it. -/
def whole? {α : Type} (r : Option (α × List Char)) : Option α :=
  r.bind fun (x, rest) => if (skipBlank rest).isEmpty then some x else none

end Read

/-- The number of nested containers that a text may have. -/
def maxDepth : Nat := 127

/-- The document that a whole text stands for, at most `depth` containers deep. -/
def ofTextWithin? (depth : Nat) (cs : List Char) : Option Json :=
  (Read.whole? (Read.value depth cs)).map normal

/-- The document that a whole text stands for. -/
def ofText? (cs : List Char) : Option Json := ofTextWithin? maxDepth cs

end Json

end PacketClassifier
