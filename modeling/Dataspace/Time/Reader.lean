import Dataspace.Json.Reader
import Dataspace.Number.Binary64
import Dataspace.Time.Calendar

/-!
# Points of time in documents

A contract document gives a point of time as text or as a number.

* Text is a date and a time, a date alone, or a number.
* A number counts seconds from the epoch, or milliseconds if it lies more than 2 * 10^10 away from
  zero; it stands for a point in UTC, to the nearest microsecond.

`Timestamp.read` tells the four ways in which this fails apart.
-/

namespace Dataspace

inductive TimestampFlaw where
  /-- The value is neither text nor a number in range. -/
  | kind
  /-- The number is none, or the calendar does not reach it. -/
  | unreachable
  /-- The text is neither a point of time nor a date nor a number. -/
  | text
deriving DecidableEq, Repr

namespace Timestamp

open Json (isDigit digitsValue)

/-! ## Text -/

/-- Exactly `count` digits. -/
def fixedDigits (count : Nat) (s : List Char) : Option (Nat × List Char) :=
  let ds := s.take count
  if ds.length = count && ds.all isDigit then some (digitsValue ds, s.drop count) else none

/-- A given character. -/
def expect (c : Char) : List Char → Option (List Char)
  | x :: r => if x = c then some r else none
  | [] => none

/-- Year, month and day as they stand, whether or not the calendar has such a day. -/
def dateParts (s : List Char) : Option ((Nat × Nat × Nat) × List Char) := do
  let (year, s) ← fixedDigits 4 s
  let s ← expect '-' s
  let (month, s) ← fixedDigits 2 s
  let s ← expect '-' s
  let (day, s) ← fixedDigits 2 s
  return ((year, month, day), s)

/-- The microseconds of a fraction of a second: six digits count, and there may be more. -/
def fractionMicroseconds (ds : List Char) : Nat :=
  digitsValue ((ds ++ List.replicate 6 '0').take 6)

/-- Seconds with an optional fraction, or nothing. -/
def secondsPart (s : List Char) : Option ((Nat × Nat) × List Char) :=
  match s with
  | ':' :: r => do
    let (second, r) ← fixedDigits 2 r
    match r with
    | c :: r' =>
      if c = '.' || c = ',' then
        match r'.takeWhile isDigit with
        | [] => none
        | ds => some ((second, fractionMicroseconds ds), r'.dropWhile isDigit)
      else some ((second, 0), r)
    | [] => some ((second, 0), r)
  | _ => some ((0, 0), s)

def timePart (s : List Char) : Option (TimeOfDay × List Char) := do
  let (hour, s) ← fixedDigits 2 s
  let s ← expect ':' s
  let (minute, s) ← fixedDigits 2 s
  let ((second, microsecond), s) ← secondsPart s
  let time ← TimeOfDay.ofParts? hour minute second microsecond
  return (time, s)

/-- The offset at the end of the text, if there is one. -/
def offsetPart (s : List Char) : Option (Option Offset) :=
  match s with
  | [] => some none
  | c :: r =>
    if c = 'Z' || c = 'z' then (if r.isEmpty then some (some Offset.utc) else none)
    else if c = '+' || c = '-' || c = '−' then do
      let (hours, r) ← fixedDigits 2 r
      let r := (expect ':' r).getD r
      let (minutes, r) ← fixedDigits 2 r
      if minutes < 60 && r.isEmpty then
        let seconds : Int := (hours * 60 + minutes) * 60
        (Offset.ofSeconds? (if c = '+' then seconds else -seconds)).map some
      else none
    else none

def isDivider (c : Char) : Bool :=
  c = 'T' || c = 't' || c = ' ' || c = '_'

/-- What may follow a date: nothing, or a divider, a time and an offset. -/
def afterDate (s : List Char) : Option (TimeOfDay × Option Offset) :=
  match s with
  | [] => some (TimeOfDay.midnight, none)
  | c :: r =>
    if isDivider c then do
      let (time, r) ← timePart r
      let offset ← offsetPart r
      return (time, offset)
    else none

/-- Whether the calendar would have the day but for the year 0. -/
def inYearZero (year month day : Nat) : Bool :=
  year = 0 && (Date.ofParts? 4 month day).isSome

/-! ## Numbers -/

/-- Above this distance from zero a number counts milliseconds. -/
def secondsLimit : Nat := 20000000000

def ofWhole? (n : Int) : Option Timestamp :=
  ofInstant? (if n.natAbs ≤ secondsLimit then n * 1000000 else n * 1000)

/-- The microseconds from the epoch that a double stands for. Its whole seconds are exact; the rest
is rounded like every product of doubles, and then to the nearest microsecond. -/
def fractionInstant (num : Int) (den : Nat) : Int :=
  let seconds := num / (den : Int)
  match (Binary64.ofFraction (num - seconds * den) den).toRatio? with
  | none => 0
  | some (n, d) =>
    match (Binary64.ofFraction (n * 1000000) d).toRatio? with
    | none => 0
    | some (n, d) => seconds * 1000000 + (2 * n + d) / (2 * d : Int)

def ofFloat? (x : Binary64) : Option Timestamp := do
  let (num, den) ← x.toRatio?
  if num.natAbs ≤ secondsLimit * den then ofInstant? (fractionInstant num den)
  else
    let (num, den) ← (Binary64.ofFraction num (den * 1000)).toRatio?
    ofInstant? (fractionInstant num den)

/-- Whether a whole number fits into 64 bits with a sign. -/
def isWord (n : Int) : Bool :=
  -0x8000000000000000 ≤ n && n < 0x8000000000000000

/-- A number given as text: digits, or a decimal with a point and perhaps an exponent. -/
def numberText? (s : List Char) : Option (Int ⊕ Binary64) :=
  let (negative, ds) : Bool × List Char :=
    match s with
    | '-' :: r => (true, r)
    | '+' :: r => (false, r)
    | _ => (false, s)
  let whole := ds.takeWhile isDigit
  match ds.dropWhile isDigit with
  | [] =>
    let n : Int := digitsValue whole
    let n := if negative then -n else n
    if whole.isEmpty || !isWord n then none else some (.inl n)
  | '.' :: r =>
    let places := r.takeWhile isDigit
    let (power, rest) := Json.exponent (r.dropWhile isDigit)
    if (whole.isEmpty && places.isEmpty) || !rest.isEmpty || !isWord (digitsValue whole) then none
    else
      some (.inr (Binary64.ofDecimal negative (digitsValue (whole ++ places))
        (power.getD 0 - places.length)))
  | _ => none

/-! ## The whole rule -/

def readText (s : List Char) : Except TimestampFlaw Timestamp :=
  match dateParts s with
  | some ((year, month, day), rest) =>
    match afterDate rest with
    | none => .error .text
    | some (time, offset) =>
      match Date.ofParts? year month day with
      | some date => .ok ⟨date, time, .ofOffset offset⟩
      | none => .error (if inYearZero year month day then .unreachable else .text)
  | none =>
    let found :=
      match numberText? s with
      | some (.inl n) => ofWhole? n
      | some (.inr x) => ofFloat? x
      | none => none
    match found with
    | some t => .ok t
    | none => .error .text

/-- The point of time that a value of a document gives. -/
def read : Json → Except TimestampFlaw Timestamp
  | .str s => readText s.toList
  | .int n =>
    if isWord n then
      match ofWhole? n with
      | some t => .ok t
      | none => .error .unreachable
    else .error .kind
  | .float x =>
    match ofFloat? x with
    | some t => .ok t
    | none => .error .unreachable
  | _ => .error .kind

end Timestamp

end Dataspace
