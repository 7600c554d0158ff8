/-
Text of addresses and networks.

* `Address.text` is the canonical text: four decimal octets, or groups of hexadecimal
  digits with the longest run of two or more zero groups (the first of equal ones) left
  out, and an embedded older address dotted.
* `Address.ofText?` accepts every such text and the other ways to write the same address.
* `Network.ofText?` reads an address with an optional length, which for the older version
  may also be a contiguous mask.
-/
import PacketClassifier.Address.Basic
import PacketClassifier.Text.Blank
import PacketClassifier.Text.Numeral

namespace PacketClassifier

namespace Address

/-- The four octets of a word of 32 bits. -/
def octets (n : Nat) : List Nat :=
  [n / 16777216 % 256, n / 65536 % 256, n / 256 % 256, n % 256]

/-- Octets in decimal, with points between them. -/
def dotted (n : Nat) : List Char := Text.join ['.'] ((octets n).map Numeral.decimal)

/-- The eight groups of a word of 128 bits. -/
def groups (n : Nat) : List Nat :=
  (List.range 8).map fun i => n / Nat.pow 2 (112 - 16 * i) % 65536

/-- The number that groups stand for. -/
def ofGroups (gs : List Nat) : Nat := gs.foldl (fun acc g => acc * 65536 + g) 0

/-- Start and length of the longest run of zeros, the first of equal ones. `index` is the
position of the list's head, `start` and `length` describe the run that ends there. -/
def longestZeros (index start length : Nat) (best : Nat × Nat) : List Nat → Nat × Nat
  | [] => best
  | g :: gs =>
    if g = 0 then
      let start := if length = 0 then index else start
      let length := length + 1
      longestZeros (index + 1) start length
        (if best.2 < length then (start, length) else best) gs
    else longestZeros (index + 1) 0 0 best gs

/-- Groups with colons between them. -/
def joinGroups (gs : List Nat) : List Char := Text.join [':'] (gs.map Numeral.hex)

/-- Groups with the longest run of zeros left out. -/
def compressed (gs : List Nat) : List Char :=
  let (start, length) := longestZeros 0 0 0 (0, 0) gs
  if 1 < length then
    joinGroups (gs.take start) ++ [':', ':'] ++ joinGroups (gs.drop (start + length))
  else joinGroups gs

/-- The canonical text. -/
def chars : Address → List Char
  | v4 bits => dotted bits.toNat
  | v6 bits =>
    if bits.toNat / 0x100000000 = 0xFFFF then
      [':', ':', 'f', 'f', 'f', 'f', ':'] ++ dotted (bits.toNat % 0x100000000)
    else compressed (groups bits.toNat)

/-- The text of an address. -/
def text (a : Address) : String := String.ofList a.chars

/-- The leading characters that are digits by the given reading, and the rest. -/
def digitSpan (digit? : Char → Option Nat) (cs : List Char) : List Char × List Char :=
  (cs.takeWhile fun c => (digit? c).isSome, cs.dropWhile fun c => (digit? c).isSome)

/-- Reads one octet: at most three digits, no leading zero, at most 255. -/
def octet? (cs : List Char) : Option (Nat × List Char) :=
  let (run, rest) := digitSpan Numeral.digit? cs
  if 3 < run.length ∨ (1 < run.length ∧ run.head? = some '0') then none
  else (Numeral.value? run).bind fun n => if n ≤ 255 then some (n, rest) else none

/-- Reads one group: at most four hexadecimal digits. -/
def group? (cs : List Char) : Option (Nat × List Char) :=
  let (run, rest) := digitSpan Numeral.hexDigit? cs
  if 4 < run.length then none else (Numeral.hexValue? run).map fun n => (n, rest)

/-- Reads by `item`, after a separator unless this is the first item. -/
def separated (sep : Char) (first : Bool) (item : List Char → Option (Nat × List Char))
    (cs : List Char) : Option (Nat × List Char) :=
  if first then item cs
  else match cs with
    | c :: cs => if c = sep then item cs else none
    | [] => none

/-- Reads four octets with points between them. -/
def dotted? (cs : List Char) : Option (Nat × List Char) := do
  let (a, cs) ← octet? cs
  let (b, cs) ← separated '.' false octet? cs
  let (c, cs) ← separated '.' false octet? cs
  let (d, cs) ← separated '.' false octet? cs
  return (a * 16777216 + b * 65536 + c * 256 + d, cs)

/-- Reads up to `limit` groups. The last two may be written as four octets, which ends the
reading; whether they were is the second answer. -/
def groups? : (limit : Nat) → (first : Bool) → List Char → List Nat × Bool × List Char
  | 0, _, cs => ([], false, cs)
  | limit + 1, first, cs =>
    match if 0 < limit then separated ':' first dotted? cs else none with
    | some (n, rest) => ([n / 65536, n % 65536], true, rest)
    | none =>
      match separated ':' first group? cs with
      | some (g, rest) =>
        let (gs, embedded, rest) := groups? limit false rest
        (g :: gs, embedded, rest)
      | none => ([], false, cs)

/-- Reads an address of 128 bits: eight groups, or fewer around one double colon. -/
def colons? (cs : List Char) : Option (Nat × List Char) :=
  let (front, embedded, rest) := groups? 8 true cs
  if front.length = 8 then some (ofGroups front, rest)
  else if embedded then none
  else match rest with
    | ':' :: ':' :: rest =>
      let (back, _, rest) := groups? (7 - front.length) true rest
      some (ofGroups (front ++ List.replicate (8 - front.length - back.length) 0 ++ back),
        rest)
    | _ => none

/-- What was read, if nothing follows it. -/
def whole? (r : Option (Nat × List Char)) : Option Nat :=
  r.bind fun (n, rest) => if rest.isEmpty then some n else none

/-- The address of 32 bits that a text stands for. -/
def v4? (cs : List Char) : Option (BitVec 32) := (whole? (dotted? cs)).map (BitVec.ofNat 32)

/-- The address of 128 bits that a text stands for. -/
def v6? (cs : List Char) : Option (BitVec 128) := (whole? (colons? cs)).map (BitVec.ofNat 128)

/-- The address that a text stands for. -/
def ofChars? (cs : List Char) : Option Address := ((v4? cs).map v4).or ((v6? cs).map v6)

/-- The address that a text stands for. -/
def ofText? (s : String) : Option Address := ofChars? s.toList

end Address

namespace Network

/-- Address and length with a slash between them. -/
def chars (n : Network) : List Char :=
  n.address.chars ++ '/' :: Numeral.decimal n.length.toNat

/-- The text of a network. -/
def text (n : Network) : String := String.ofList n.chars

/-- The number of leading bits that a contiguous mask sets. -/
def maskLength? (mask : BitVec 32) : Option Nat :=
  (List.range 33).find? fun length =>
    (BitVec.allOnes 32 >>> (32 - length)) <<< (32 - length) == mask

/-- A length of at most `bound` bits. -/
def length? (bound : Nat) (cs : List Char) : Option Nat := Numeral.unsigned? bound cs

/-- The two sides of a slash, or the whole text without one; two slashes are refused. -/
def sides? (cs : List Char) : Option (List Char × Option (List Char)) :=
  match Text.splitOn '/' cs with
  | [address] => some (address, none)
  | [address, length] => some (address, some length)
  | _ => none

/-- The network that a text stands for, with the bits behind its length as written. -/
def ofChars? (cs : List Char) : Option Network := do
  let (address, length) ← sides? cs
  match Address.v4? address with
  | some bits =>
    match length with
    | none => return ⟨.v4 bits, 32⟩
    | some length =>
      let n ← (length? 32 length).or ((Address.v4? length).bind maskLength?)
      return ⟨.v4 bits, n.toUInt8⟩
  | none =>
    let bits ← Address.v6? address
    match length with
    | none => return ⟨.v6 bits, 128⟩
    | some length => return ⟨.v6 bits, (← length? 128 length).toUInt8⟩

/-- The network that a text stands for. -/
def ofText? (s : String) : Option Network := ofChars? s.toList

end Network

end PacketClassifier
