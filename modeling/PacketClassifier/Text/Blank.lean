/-
Blank characters, trimming, fields and lines.

`isBlank` is Unicode's `White_Space` property. The other functions follow from it: `trim`
drops blanks at both ends, `fields` are the maximal runs of non-blank characters, and
`lines` cuts at line feeds, where a carriage return in front of the line feed belongs to
the line's end.
-/
namespace PacketClassifier

namespace Text

/-- Whether a character has the property `White_Space`. -/
def isBlank (c : Char) : Bool :=
  let n := c.toNat
  (9 ≤ n && n ≤ 13) || n == 32 || n == 0x85 || n == 0xA0 || n == 0x1680
    || (0x2000 ≤ n && n ≤ 0x200A)
    || n == 0x2028 || n == 0x2029 || n == 0x202F || n == 0x205F || n == 0x3000

/-- Drops the blanks in front. -/
def trimStart (cs : List Char) : List Char := cs.dropWhile isBlank

/-- Drops the blanks on both sides. -/
def trim (cs : List Char) : List Char := (trimStart (trimStart cs).reverse).reverse

/-- Adds one character in front of a list of fields, where an empty first field stands for
a blank gap. -/
def consField (c : Char) : List (List Char) → List (List Char)
  | [] => if isBlank c then [] else [[c]]
  | f :: fs =>
    if isBlank c then (if f.isEmpty then f :: fs else [] :: f :: fs) else (c :: f) :: fs

/-- The maximal runs of non-blank characters. -/
def fields (cs : List Char) : List (List Char) :=
  (cs.foldr consField []).filter (! ·.isEmpty)

/-- Cuts at every occurrence of `sep`; `n` separators give `n + 1` pieces. -/
def splitOn (sep : Char) : List Char → List (List Char)
  | [] => [[]]
  | c :: cs =>
    if c = sep then [] :: splitOn sep cs
    else match splitOn sep cs with
      | [] => [[c]]
      | piece :: pieces => (c :: piece) :: pieces

/-- Drops one carriage return at the end. -/
def dropReturn (cs : List Char) : List Char :=
  if cs.getLast? = some '\r' then cs.dropLast else cs

/-- The lines of a text. Every line feed ends a line, and what stands after the last one
is a line unless it is empty; a carriage return just before a line feed is not part of the
line. -/
def lines (cs : List Char) : List (List Char) :=
  let pieces := splitOn '\n' cs
  let last := pieces.getLast?.getD []
  pieces.dropLast.map dropReturn ++ (if last.isEmpty then [] else [last])

/-- Joins pieces with a separator between them. -/
def join (sep : List Char) (pieces : List (List Char)) : List Char := sep.intercalate pieces

end Text

end PacketClassifier
