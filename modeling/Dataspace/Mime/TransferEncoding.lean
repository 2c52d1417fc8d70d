import Dataspace.Text.Blank
import Dataspace.Text.Charset

/-!
# Transfer encodings

How octets are spelt in the lines of a message: in base64, as quoted printables, or in the older
form of lines with a length each (`Uuencoded`). All readers here are lenient: what is no part of the
spelling is passed over or left as it is.
-/

namespace Dataspace.Mime

open Text (Octets)

/-- The value of a hexadecimal digit given as an octet. -/
def hexValue? (b : UInt8) : Option Nat :=
  if b < 0x80 then Text.hexValue? (Char.ofNat b.toNat) else none

/-- The octet that two hexadecimal digits name. -/
def hexOctet? (a b : UInt8) : Option UInt8 := do
  return ((← hexValue? a) * 16 + (← hexValue? b)).toUInt8

def isLineEnd (b : UInt8) : Bool :=
  b == 0x0A || b == 0x0D

/-! ## Base64 -/

namespace Base64

/-- The value of one of the sixty-four digits. -/
def value? (b : UInt8) : Option Nat :=
  if 0x41 ≤ b && b ≤ 0x5A then some (b.toNat - 0x41)
  else if 0x61 ≤ b && b ≤ 0x7A then some (b.toNat - 0x61 + 26)
  else if 0x30 ≤ b && b ≤ 0x39 then some (b.toNat - 0x30 + 52)
  else if b == 0x2B then some 62
  else if b == 0x2F then some 63
  else none

/-- The values of the digits up to the padding that completes a group of four. `count` digits of the
group have come, and `pads` paddings since the last digit; other octets are passed over. -/
def digits : (count pads : Nat) → Octets → List Nat
  | _, _, [] => []
  | count, pads, b :: r =>
    if b = 0x3D then
      if 2 ≤ count && 3 ≤ count + pads then [] else digits count (pads + 1) r
    else
      match value? b with
      | none => digits count pads r
      | some v => v :: digits ((count + 1) % 4) 0 r

/-- Four digits spell three octets, three digits two, and two digits one. -/
def octets : List Nat → Octets
  | a :: b :: c :: d :: r =>
    (a * 4 + b / 16).toUInt8 :: (b % 16 * 16 + c / 4).toUInt8 :: (c % 4 * 64 + d).toUInt8 ::
      octets r
  | [a, b, c] => [(a * 4 + b / 16).toUInt8, (b % 16 * 16 + c / 4).toUInt8]
  | [a, b] => [(a * 4 + b / 16).toUInt8]
  | _ => []

/-- What a text spells; one that ends with a single digit of a group spells nothing and stays. -/
def decode (s : Octets) : Octets :=
  let ds := digits 0 0 s
  if ds.length % 4 = 1 then s else octets ds

end Base64

/-! ## Quoted printables -/

namespace QuotedPrintable

/-- The text after the line that ends here. -/
def afterLine (s : Octets) : Octets :=
  (s.dropWhile (· ≠ 0x0A)).drop 1

/-- A sign of equality with two hexadecimal digits spells an octet, with a line end nothing, with a
second sign one, and by itself it spells itself. `fuel` is the length of the text. -/
def decodeFrom : (fuel : Nat) → Octets → Octets
  | _, [] => []
  | 0, _ :: _ => []
  | fuel + 1, b :: r =>
    if b ≠ 0x3D then b :: decodeFrom fuel r
    else
      match r with
      | [] => []
      | a :: r' =>
        if isLineEnd a then decodeFrom fuel (afterLine r)
        else if a = 0x3D then 0x3D :: decodeFrom fuel r'
        else
          match r' with
          | c :: r'' =>
            match hexOctet? a c with
            | some x => x :: decodeFrom fuel r''
            | none => 0x3D :: decodeFrom fuel r
          | [] => 0x3D :: decodeFrom fuel r

def decode (s : Octets) : Octets :=
  decodeFrom s.length s

end QuotedPrintable

/-! ## Lines with lengths -/

namespace Uuencoded

/-- The lines of a text without their ends; no line follows the last end. -/
def linesFrom (line : Octets) : Octets → List Octets
  | [] => if line.isEmpty then [] else [line.reverse]
  | 0x0D :: 0x0A :: r => line.reverse :: linesFrom [] r
  | b :: r => if isLineEnd b then line.reverse :: linesFrom [] r else linesFrom (b :: line) r

def lines (s : Octets) : List Octets :=
  linesFrom [] s

/-- The digits of an octal number, with single underscores between them. -/
def areOctalDigits : Octets → Bool
  | [] => false
  | [b] => 0x30 ≤ b && b ≤ 0x37
  | b :: 0x5F :: r => 0x30 ≤ b && b ≤ 0x37 && areOctalDigits r
  | b :: r => 0x30 ≤ b && b ≤ 0x37 && areOctalDigits r

/-- An octal number with or without a sign and a mark of its base. -/
def isOctal (s : Octets) : Bool :=
  let s := Text.stripBy Text.isBlankOctet s
  let s :=
    match s with
    | 0x2B :: r => r
    | 0x2D :: r => r
    | _ => s
  let afterMark (r : Octets) : Octets :=
    match r with
    | 0x5F :: r' => r'
    | _ => r
  match s with
  | 0x30 :: 0x6F :: r => areOctalDigits (afterMark r)
  | 0x30 :: 0x4F :: r => areOctalDigits (afterMark r)
  | _ => areOctalDigits s

/-- The word that begins the first line, and the mode in octal digits after it. -/
def isFirstLine (line : Octets) : Bool :=
  let word := Text.utf8 "begin "
  word.isPrefixOf line && isOctal ((line.drop word.length).takeWhile (· ≠ 0x20))

def isLastLine (line : Octets) : Bool :=
  Text.stripBy (fun b => b == 0x20 || b == 0x09 || b == 0x0C || isLineEnd b) line = Text.utf8 "end"

/-- The number of octets that a line announces. -/
def size (b : UInt8) : Nat :=
  (b.toNat + 32) % 64

/-- The value of a digit: of the characters from the space to the one sixty-four places after it. -/
def value? (b : UInt8) : Option Nat :=
  if 0x20 ≤ b && b ≤ 0x60 then some ((b.toNat - 32) % 64) else none

/-- What may stand after the digits that are needed. -/
def isFiller (b : UInt8) : Bool :=
  b == 0x20 || b == 0x60

/-- The octets of a line; digits that are not there are zero. -/
def lineOctets? : Octets → Option Octets
  | [] => none
  | b :: r => do
    let count := size b
    let needed := (count * 4 + 2) / 3
    let values ← (r.take needed).mapM value?
    if (r.drop needed).all isFiller then
      some ((Base64.octets (values ++ List.replicate (needed + 2 - values.length) 0)).take count)
    else none

/-- The octets of a line, or of as much of it as the announced number takes. -/
def readLine? (line : Octets) : Option Octets :=
  match lineOctets? line with
  | some octets => some octets
  | none =>
    match line with
    | [] => none
    | b :: _ => lineOctets? (line.take ((size b * 4 + 5) / 3))

def readLines? : List Octets → Option Octets
  | [] => some []
  | line :: r =>
    if isLastLine line then some [] else do return (← readLine? line) ++ (← readLines? r)

/-- The octets between the first line and the last, if all lines can be read. -/
def decode? (s : Octets) : Option Octets :=
  match (lines s).dropWhile fun line => !isFirstLine line with
  | [] => none
  | _ :: r => readLines? r

end Uuencoded

/-! ## By name -/

/-- What a body spells in the named transfer encoding. A body in another encoding, or one that
cannot be read, stays as it is. -/
def transferDecode (name : String) (s : Octets) : Octets :=
  if name = "base64" then Base64.decode (s.filter fun b => !isLineEnd b)
  else if name = "quoted-printable" then QuotedPrintable.decode s
  else if name ∈ ["x-uuencode", "uuencode", "uue", "x-uue"] then (Uuencoded.decode? s).getD s
  else s

end Dataspace.Mime
