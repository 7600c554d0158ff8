/-
JSON text of documents.

One writer serves every layout. A layout says what stands where a line may break at a
given depth and what stands between a key and its value; both are blanks and a colon, so
every layout reads back alike. `Json.compact` has no blanks at all, and `Json.pretty`
indents by two spaces.
-/
import PacketClassifier.Binary64.Decimal
import PacketClassifier.Json.Basic

namespace PacketClassifier

namespace Json

/-- Where the blanks of a text stand. -/
structure Layout where
  /-- What stands at a possible line break, given the depth of the line that follows. -/
  lineBreak : Nat → List Char
  /-- What stands between a key and its value. -/
  colon : List Char

/-- No blanks. -/
def Layout.compact : Layout := ⟨fun _ => [], [':']⟩

/-- One item a line, two spaces for each depth. -/
def Layout.pretty : Layout :=
  ⟨fun depth => '\n' :: List.replicate (2 * depth) ' ', [':', ' ']⟩

/-- A character as it stands between quotes: quote, backslash and the control characters
are escaped. -/
def escape (c : Char) : List Char :=
  if c = '"' then ['\\', '"']
  else if c = '\\' then ['\\', '\\']
  else if 0x20 ≤ c.toNat then [c]
  else if c.toNat = 8 then ['\\', 'b']
  else if c.toNat = 12 then ['\\', 'f']
  else if c = '\n' then ['\\', 'n']
  else if c = '\r' then ['\\', 'r']
  else if c = '\t' then ['\\', 't']
  else ['\\', 'u', '0', '0', Numeral.digitChar (c.toNat / 16),
    Numeral.digitChar (c.toNat % 16)]

/-- A string between quotes. -/
def quote (s : String) : List Char := '"' :: s.toList.flatMap escape ++ ['"']

mutual

/-- The text of a document that starts on a line of the given depth. -/
def write (l : Layout) (depth : Nat) : Json → List Char
  | .null => ['n', 'u', 'l', 'l']
  | .bool true => ['t', 'r', 'u', 'e']
  | .bool false => ['f', 'a', 'l', 's', 'e']
  | .int n => Numeral.integer n
  | .real x => x.decimal
  | .str s => quote s
  | .arr [] => ['[', ']']
  | .arr (x :: xs) =>
    '[' :: l.lineBreak (depth + 1) ++ write l (depth + 1) x ++ writeItems l (depth + 1) xs
      ++ l.lineBreak depth ++ [']']
  | .obj [] => ['{', '}']
  | .obj ((k, v) :: ms) =>
    '{' :: l.lineBreak (depth + 1) ++ quote k ++ l.colon ++ write l (depth + 1) v
      ++ writeMembers l (depth + 1) ms ++ l.lineBreak depth ++ ['}']
  termination_by structural j => j

/-- The items after the first one, each behind a comma. -/
def writeItems (l : Layout) (depth : Nat) : List Json → List Char
  | [] => []
  | x :: xs => ',' :: l.lineBreak depth ++ write l depth x ++ writeItems l depth xs
  termination_by structural xs => xs

/-- The members after the first one, each behind a comma. -/
def writeMembers (l : Layout) (depth : Nat) : Members → List Char
  | [] => []
  | (k, v) :: ms =>
    ',' :: l.lineBreak depth ++ quote k ++ l.colon ++ write l depth v
      ++ writeMembers l depth ms
  termination_by structural ms => ms

end

/-- The text without blanks. -/
def compact (j : Json) : String := String.ofList (write .compact 0 j)

/-- The indented text. -/
def pretty (j : Json) : String := String.ofList (write .pretty 0 j)

end Json

end PacketClassifier
