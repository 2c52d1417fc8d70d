import Dataspace.Text.Charset

/-!
# Characters in units of two and four octets

A JSON text may come in UTF-16 or UTF-32. Its first characters are ASCII, so that the places of the
zero octets, or a mark in front, tell the encoding: `decodeJson` finds it out and reads the text.

Half of a character that takes two units stands for no character and is read as U+FFFD.
-/

namespace Dataspace.Text

/-- The octets of a unit in the order of their weight. -/
inductive ByteOrder where
  | little
  | big
deriving DecidableEq, Repr

namespace ByteOrder

def suffix : ByteOrder → String
  | little => "-le"
  | big => "-be"

/-- The number that the octets of one unit spell. -/
def number : ByteOrder → Octets → Nat
  | big, bs => bs.foldl (fun n b => n * 256 + b.toNat) 0
  | little, bs => bs.foldr (fun b n => n * 256 + b.toNat) 0

end ByteOrder

/-- The character with a number; halves of characters are no characters. -/
def charOrMark (n : Nat) : Char :=
  if 0xD800 ≤ n && n < 0xE000 then '\uFFFD' else Char.ofNat n

namespace Utf16

/-- The character that two units spell together, if they do. -/
def pair? (high low : Nat) : Option Char :=
  if 0xD800 ≤ high && high < 0xDC00 && 0xDC00 ≤ low && low < 0xE000 then
    some (Char.ofNat (0x10000 + (high - 0xD800) * 0x400 + (low - 0xDC00)))
  else none

def ofUnits : List Nat → List Char
  | n :: m :: r =>
    match pair? n m with
    | some c => c :: ofUnits r
    | none => charOrMark n :: ofUnits (m :: r)
  | [n] => [charOrMark n]
  | [] => []

/-- The units of the input; `position` octets stand before it. -/
def units (order : ByteOrder) : (position : Nat) → Octets → Except DecodingFault (List Nat)
  | position, a :: b :: r => (units order (position + 2) r).map (order.number [a, b] :: ·)
  | position, [a] => .error ⟨"utf-16" ++ order.suffix, position, 1, a, .truncatedUnit⟩
  | _, [] => .ok []

def decode (order : ByteOrder) (position : Nat) (s : Octets) : Except DecodingFault (List Char) :=
  (units order position s).map ofUnits

end Utf16

namespace Utf32

/-- The characters of the input; `position` octets stand before it. -/
def decode (order : ByteOrder) : (position : Nat) → Octets → Except DecodingFault (List Char)
  | position, a :: b :: c :: d :: r =>
    let n := order.number [a, b, c, d]
    if n < 0x110000 then (decode order (position + 4) r).map (charOrMark n :: ·)
    else .error ⟨"utf-32" ++ order.suffix, position, 4, a, .outsideUnicode⟩
  | _, [] => .ok []
  | position, a :: r => .error ⟨"utf-32" ++ order.suffix, position, r.length + 1, a, .truncatedUnit⟩

end Utf32

/-- The characters of a JSON text given as octets in any of the encodings that it may have. -/
def decodeJson (s : Octets) : Except DecodingFault (List Char) :=
  match s with
  | 0x00 :: 0x00 :: 0xFE :: 0xFF :: r => Utf32.decode .big 4 r
  | 0xFF :: 0xFE :: 0x00 :: 0x00 :: r => Utf32.decode .little 4 r
  | 0xFE :: 0xFF :: r => Utf16.decode .big 2 r
  | 0xFF :: 0xFE :: r => Utf16.decode .little 2 r
  | 0xEF :: 0xBB :: 0xBF :: r => Utf8.decode r
  | a :: b :: c :: d :: _ =>
    if a = 0 then (if b = 0 then Utf32.decode .big 0 s else Utf16.decode .big 0 s)
    else if b = 0 then
      (if c = 0 && d = 0 then Utf32.decode .little 0 s else Utf16.decode .little 0 s)
    else Utf8.decode s
  | [a, b] =>
    if a = 0 then Utf16.decode .big 0 s
    else if b = 0 then Utf16.decode .little 0 s
    else Utf8.decode s
  | _ => Utf8.decode s

end Dataspace.Text
