import Dataspace.Contract.Reader
import Dataspace.Download

/-!
# Scalar settings

A setting is given as a value of its own kind or as text that spells it out, as an environment does.
Each check here says what it takes and which of the ways to be wrong a value has.

* A number may be spelt with a sign, without digits on one side of the point, with an exponent, as
  `inf`, `infinity` or `nan`, and with single underscores between other characters.
* A whole number may have blanks around it, zeros before it, a point with zeros after it, and single
  underscores within it.
* A switch may be `on`, `yes`, `y`, `true`, `t`, `1` or the opposite, in letters of either case.
-/

namespace Dataspace.Setting

open Json (isDigit digitsValue)
open Checked (fail)

/-- The lower-case form of a letter; of the characters beyond ASCII only the Kelvin sign has one
that belongs to ASCII. -/
def lower (c : Char) : Char :=
  if c.toNat = 0x212A then 'k' else c.toLower

/-- A text without its underscores, if there are any and each stands alone between two other
characters. -/
def withoutUnderscores (s : List Char) : Option (List Char) :=
  let pieces := Text.splitOn '_' s
  if pieces.length = 1 || pieces.any List.isEmpty then none else some pieces.flatten

/-! ## Numbers -/

/-- The digits after a point, and the text after them. -/
def places : List Char → List Char × List Char
  | '.' :: r => (r.takeWhile isDigit, r.dropWhile isDigit)
  | s => ([], s)

/-- A number without sign: digits on at least one side of the point, and perhaps an exponent. -/
def decimal? (negative : Bool) (s : List Char) : Option Binary64 :=
  let whole := s.takeWhile isDigit
  let (fraction, r) := places (s.dropWhile isDigit)
  let (power, rest) := Json.exponent r
  if (whole.isEmpty && fraction.isEmpty) || !rest.isEmpty then none
  else
    some (Binary64.ofDecimal negative (digitsValue (whole ++ fraction))
      (power.getD 0 - fraction.length))

def number? (s : List Char) : Option Binary64 :=
  let (negative, r) : Bool × List Char :=
    match s with
    | '-' :: r => (true, r)
    | '+' :: r => (false, r)
    | _ => (false, s)
  match String.ofList (r.map Char.toLower) with
  | "inf" | "infinity" => some (.infinite negative)
  | "nan" => some .nan
  | _ => decimal? negative r

/-- A number as a text spells it. Blanks around it are no part of it, but with underscores in it
there must be none. -/
def readNumber (s : List Char) : Checked Binary64 :=
  match number? (Text.stripBy Text.isWhiteSpace s) with
  | some x => .ok x
  | none =>
    match (withoutUnderscores s).bind number? with
    | some x => .ok x
    | none => fail .unreadableNumber

def number : Json → Checked Binary64
  | .str s => readNumber s.toList
  | .float x => .ok x
  | .int i =>
    match Binary64.ofInt i with
    | .infinite _ => fail .notNumber
    | x => .ok x
  | .bool b => .ok (.ofInt (if b then 1 else 0))
  | _ => fail .notNumber

/-! ## Whole numbers -/

/-- The number of digits that a whole number may have as text. -/
def digitLimit : Nat := 4300

/-- A whole number in its plain form: no zero in front, no sign but a minus. -/
def plainWhole (s : List Char) : Checked Int :=
  let (negative, ds) : Bool × List Char :=
    match s with
    | '-' :: r => (true, r)
    | _ => (false, s)
  match Json.wholePart ds with
  | some (whole, []) =>
    if digitLimit < whole.length then fail .tooManyDigits
    else
      let n : Int := digitsValue whole
      .ok (if negative then -n else n)
  | _ => fail .unreadableInteger

/-- The text after a zero that `last` ends, without further zeros and underscores in front; the
last character stays if nothing or a point follows. -/
def afterZeros (last : Char) : List Char → Option (List Char)
  | [] => some [last]
  | c :: r =>
    if c = '0' || c = '_' then afterZeros c r
    else if c = '.' then some (last :: c :: r)
    else if isDigit c then some (c :: r)
    else none

/-- A text without zeros in front. -/
def withoutZeros : List Char → Option (List Char)
  | [] => none
  | c :: r =>
    if c = '0' then afterZeros c r
    else if c = '-' || isDigit c then some (c :: r)
    else none

/-- A text without a point that has only zeros after it. -/
def withoutPoint (s : List Char) : List Char :=
  match s.dropWhile (· ≠ '.') with
  | _ :: r => if r.all (· = '0') then s.takeWhile (· ≠ '.') else s
  | [] => s

/-- A whole number as a text spells it. -/
def readWhole (s : List Char) : Checked Int :=
  match plainWhole s with
  | .ok i => .ok i
  | .error ps =>
    if ps = [⟨.tooManyDigits, []⟩] then .error ps
    else
      match withoutZeros (Text.stripBy Text.isWhiteSpace s) with
      | none => fail .unreadableInteger
      | some r =>
        let r := withoutPoint r
        plainWhole ((withoutUnderscores r).getD r)

/-- Whether a whole number is one of less than 64 binary digits. -/
def isWord (i : Int) : Bool :=
  i.natAbs < 0x8000000000000000

/-- A double that is a whole number, as such. -/
def wholeOfDouble (x : Binary64) : Checked Int :=
  match x.toRatio? with
  | none => fail .notFinite
  | some (n, d) =>
    if n % d ≠ 0 then fail .notWhole
    else if isWord (n / d) then .ok (n / d)
    else fail .tooManyDigits

def whole : Json → Checked Int
  | .str s => readWhole s.toList
  | .int i => .ok i
  | .float x => wholeOfDouble x
  | .bool b => .ok (if b then 1 else 0)
  | _ => fail .notInteger

/-! ## Switches and choices -/

def onWords : List String := ["1", "on", "t", "true", "y", "yes"]

def offWords : List String := ["0", "off", "f", "false", "n", "no"]

def switchOfInt (i : Int) : Checked Bool :=
  if i = 1 then .ok true else if i = 0 then .ok false else fail .unreadableSwitch

def switchOfDouble (x : Binary64) : Checked Bool :=
  match wholeOfDouble x with
  | .ok i => switchOfInt i
  | .error _ => fail .notSwitch

def switch : Json → Checked Bool
  | .bool b => .ok b
  | .str s =>
    let word := String.ofList (s.toList.map Char.toLower)
    if word ∈ onWords then .ok true
    else if word ∈ offWords then .ok false
    else fail .unreadableSwitch
  | .int i => if isWord i || i = -0x8000000000000000 then switchOfInt i else fail .notSwitch
  | .float x => switchOfDouble x
  | _ => fail .notSwitch

def policy : Json → Checked FailurePolicy
  | .str s =>
    match FailurePolicy.ofName? (String.ofList (s.toList.map lower)) with
    | some p => .ok p
    | none => fail .notChoice
  | _ => fail .notChoice

end Dataspace.Setting
