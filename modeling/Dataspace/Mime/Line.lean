import Dataspace.Mime.TransferEncoding

/-!
# Lines of a message

A line keeps its end: a line feed, a carriage return, or both in this order. The last line may have
none.
-/

namespace Dataspace.Mime

open Text (Octets)

namespace Line

/-- Whether a line ends with an octet, given the one that follows. -/
def endsWith (b : UInt8) (next : Option UInt8) : Bool :=
  b = 0x0A || (b = 0x0D && next ≠ some 0x0A)

/-- The lines of a text; put together they are the text. -/
def ofOctets : Octets → List Octets
  | [] => []
  | b :: r =>
    if endsWith b r.head? then [b] :: ofOctets r
    else
      match ofOctets r with
      | [] => [[b]]
      | line :: more => (b :: line) :: more

/-- Whether nothing stands before the end of a line. -/
def isEmpty : Octets → Bool
  | b :: _ => isLineEnd b
  | [] => false

/-- A text without the line end at its own end. -/
def withoutEnd (s : Octets) : Octets :=
  match s.reverse with
  | 0x0A :: 0x0D :: r => r.reverse
  | b :: r => if isLineEnd b then r.reverse else s
  | [] => []

/-! ## Delimiters -/

/-- Whether nothing but blanks and a line end stand in the rest of a line. -/
def isBlankTail (s : Octets) : Bool :=
  match s.dropWhile fun b => b == 0x20 || b == 0x09 with
  | [] => true
  | [b] => isLineEnd b
  | [a, b] => a == 0x0D && b == 0x0A
  | _ => false

/-- What a line is among the parts of a message. -/
inductive Delimiter where
  | between
  | final
deriving DecidableEq, Repr

/-- A delimiter is two hyphens and the boundary; two more hyphens make it the final one. -/
def delimiter? (boundary : List Char) (line : Octets) : Option Delimiter :=
  let mark := 0x2D :: 0x2D :: Text.utf8 (String.ofList boundary)
  if boundary.all (·.toNat < 0x80) && mark.isPrefixOf line then
    match line.drop mark.length with
    | 0x2D :: 0x2D :: r =>
      if isBlankTail r then some .final else none
    | r => if isBlankTail r then some .between else none
  else none

end Line

end Dataspace.Mime
