/-
Text of points in time.

`Instant.text` writes date and time in universal time, with as many groups of three
fraction digits as are needed. `Instant.ofText?` reads the same form and looser ones:
blanks between the parts, one letter of either case or a blank between date and time, one
digit where two are usual, and any offset from universal time. The first part that does
not fit decides between the faults.
-/
import PacketClassifier.Instant.Basic
import PacketClassifier.Text.Blank
import PacketClassifier.Text.Numeral

namespace PacketClassifier

namespace Instant

/-- Why a text is no point in time. -/
inductive Fault where
  /-- A number is larger than its part allows, or the date does not exist. -/
  | outOfRange
  /-- The instant lies outside the calendar. -/
  | impossible
  /-- A character stands where it cannot. -/
  | invalid
  /-- The text ends too early. -/
  | tooShort
  /-- Something follows the end. -/
  | tooLong
  deriving DecidableEq, Repr

/-- The words for it. -/
def Fault.message : Fault → String
  | outOfRange => "input is out of range"
  | impossible => "no possible date and time matching input"
  | invalid => "input contains invalid characters"
  | tooShort => "premature end of input"
  | tooLong => "trailing input"

/-- A year of four digits, or one with a sign and at least four digits. -/
def yearText (year : Int) : List Char :=
  if 0 ≤ year ∧ year ≤ 9999 then Numeral.padded 4 year.toNat
  else (if year < 0 then '-' else '+') :: Numeral.padded 4 year.natAbs

/-- The fraction of a second, in three, six or nine digits. -/
def fractionText (nanoseconds : Nat) : List Char :=
  if nanoseconds = 0 then []
  else if nanoseconds % 1000000 = 0 then '.' :: Numeral.padded 3 (nanoseconds / 1000000)
  else if nanoseconds % 1000 = 0 then '.' :: Numeral.padded 6 (nanoseconds / 1000)
  else '.' :: Numeral.padded 9 nanoseconds

/-- Date and time in universal time. -/
def chars (t : Instant) : List Char :=
  let (year, month, day) := Calendar.date (t.seconds.ediv 86400)
  let s := (t.seconds.emod 86400).toNat
  let leap := if 1000000000 ≤ t.nanoseconds then 1 else 0
  yearText year ++ '-' :: Numeral.padded 2 month ++ '-' :: Numeral.padded 2 day
    ++ 'T' :: Numeral.padded 2 (s / 3600) ++ ':' :: Numeral.padded 2 (s / 60 % 60)
    ++ ':' :: Numeral.padded 2 (s % 60 + leap)
    ++ fractionText (t.nanoseconds % 1000000000) ++ ['Z']

/-- The text of a point in time. -/
def text (t : Instant) : String := String.ofList t.chars

/-- Reads a run of digits, at most `limit` of them if there is a limit. -/
def number (limit : Option Nat) (cs : List Char) : Except Fault (Nat × List Char) :=
  match cs with
  | [] => .error .tooShort
  | _ =>
    let run := (cs.take (limit.getD cs.length)).takeWhile Numeral.isDigit
    match Numeral.value? run with
    | none => .error .invalid
    | some n =>
      if n < 0x8000000000000000 then .ok (n, cs.drop run.length) else .error .outOfRange

/-- Reads a number of at most two digits, behind blanks, in the given range. -/
def part (low high : Nat) (cs : List Char) : Except Fault (Nat × List Char) := do
  let (n, cs) ← number (some 2) (Text.trimStart cs)
  if low ≤ n ∧ n ≤ high then return (n, cs) else .error .outOfRange

/-- Reads one character, behind blanks. -/
def mark (c : Char) (cs : List Char) : Except Fault (List Char) :=
  match Text.trimStart cs with
  | [] => .error .tooShort
  | d :: cs => if d = c then .ok cs else .error .invalid

/-- Reads a year: four digits at most, or a sign and any number of digits. -/
def year (cs : List Char) : Except Fault (Int × List Char) := do
  let (y, cs) ← match Text.trimStart cs with
    | '-' :: cs => do
      let (n, cs) ← number none cs
      pure (-(n : Int), cs)
    | '+' :: cs => do
      let (n, cs) ← number none cs
      pure ((n : Int), cs)
    | cs => do
      let (n, cs) ← number (some 4) cs
      pure ((n : Int), cs)
  if -2147483648 ≤ y ∧ y ≤ 2147483647 then return (y, cs) else .error .outOfRange

/-- Reads the fraction of a second, if there is one. Digits after the ninth do not count. -/
def fraction (cs : List Char) : Except Fault (Nat × List Char) :=
  match cs with
  | '.' :: cs => do
    let (n, rest) ← number (some 9) cs
    return (n * Nat.pow 10 (9 - (cs.length - rest.length)), rest.dropWhile Numeral.isDigit)
  | cs => .ok (0, cs)

/-- Reads exactly two digits; the first of them may be limited to below six. -/
def twoDigits (sixty : Bool) (cs : List Char) : Except Fault (Nat × List Char) :=
  match cs with
  | [] => .error .tooShort
  | [c] => if c.toNat < 128 then .error .tooShort else .error .invalid
  | a :: b :: cs =>
    match Numeral.digit? a, Numeral.digit? b with
    | some x, some y => if sixty ∧ 6 ≤ x then .error .outOfRange else .ok (10 * x + y, cs)
    | _, _ => .error .invalid

/-- Reads an offset from universal time, in seconds. -/
def offset (cs : List Char) : Except Fault (Int × List Char) :=
  let signed (sign : Int) (cs : List Char) : Except Fault (Int × List Char) := do
    let (hours, cs) ← twoDigits false cs
    let (minutes, cs) ← twoDigits true (cs.dropWhile fun c => c == ':' || Text.isBlank c)
    return (sign * (hours * 3600 + minutes * 60 : Nat), cs)
  match cs with
  | [] => .error .tooShort
  | c :: rest =>
    if (cs.take 3).map Char.toLower = ['u', 't', 'c'] then .ok (0, cs.drop 3)
    else if c = 'Z' ∨ c = 'z' then .ok (0, rest)
    else if c = '+' then signed 1 rest
    else if c = '-' ∨ c = Char.ofNat 0x2212 then signed (-1) rest
    else .error .invalid

/-- Reads the letter or blank between date and time. -/
def separator (cs : List Char) : Except Fault (List Char) :=
  match cs with
  | [] => .error .tooShort
  | c :: cs => if c = 't' ∨ c = 'T' ∨ c = ' ' then .ok cs else .error .invalid

/-- The point in time that a text stands for. -/
def ofChars (cs : List Char) : Except Fault Instant := do
  let (y, cs) ← year cs
  let (month, cs) ← part 1 12 (← mark '-' cs)
  let (day, cs) ← part 1 31 (← mark '-' cs)
  let (hour, cs) ← part 0 23 (← separator cs)
  let (minute, cs) ← part 0 59 (← mark ':' cs)
  let (second, cs) ← part 0 60 (← mark ':' cs)
  let (nanoseconds, cs) ← fraction cs
  let (offset, cs) ← offset (Text.trimStart cs)
  if ¬ (Text.trimStart cs).isEmpty then .error .tooLong
  let local_ := Calendar.days y month day
  if day > Calendar.monthLength y month ∨ local_ < Calendar.firstDay
      ∨ Calendar.lastDay < local_ ∨ 86400 ≤ offset.natAbs then
    .error .outOfRange
  let clock : Int := (hour * 3600 + minute * 60 + min second 59 : Nat)
  let seconds := local_ * 86400 + clock - offset
  if seconds.ediv 86400 < Calendar.firstDay ∨ Calendar.lastDay < seconds.ediv 86400 then
    .error .impossible
  return ⟨seconds, nanoseconds + (if second = 60 then 1000000000 else 0)⟩

/-- The point in time that a string stands for. -/
def ofText (s : String) : Except Fault Instant := ofChars s.toList

end Instant

end PacketClassifier
