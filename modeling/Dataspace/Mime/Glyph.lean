import Dataspace.Text.Blank
import Dataspace.Text.Charset

/-!
# Header texts

The text of a header field is ASCII, but a sender may put any octets there, and encoded words and
parameters in it stand for further characters. A `Glyph` is one place of such a text: a character,
or an octet that stands for none.

`Glyph.isOneOf` is the form in which the grammar of header fields gives its classes of characters.
-/

namespace Dataspace.Mime

open Text (Octets)

inductive Glyph where
  | char (c : Char)
  | octet (b : UInt8)
deriving DecidableEq, Repr

namespace Glyph

def isOneOf (set : List Char) : Glyph → Bool
  | char c => set.contains c
  | octet _ => false

/-- Whether no character stands in this place. -/
def isOctet : Glyph → Bool
  | char _ => false
  | octet _ => true

def isBlank : Glyph → Bool
  | char c => Text.isBlank c
  | octet _ => false

/-- Space and tab, which separate tokens. -/
def isGap : Glyph → Bool :=
  isOneOf [' ', '\t']

/-- The glyph of an octet as it came. -/
def ofOctet (b : UInt8) : Glyph :=
  if b < 0x80 then char (Char.ofNat b.toNat) else octet b

def toOctets : Glyph → Octets
  | char c => Text.Utf8.encodeChar c
  | octet b => [b]

/-- The octet itself, or the one that spells an ASCII character. -/
def toOctet? : Glyph → Option UInt8
  | char c => if c.toNat < 0x80 then some c.toNat.toUInt8 else none
  | octet b => some b

end Glyph

abbrev Glyphs := List Glyph

namespace Glyphs

def ofChars (cs : List Char) : Glyphs :=
  cs.map .char

def ofOctets (s : Octets) : Glyphs :=
  s.map .ofOctet

/-- The octets of the text: characters in UTF-8, and the octets that stand for none. -/
def toOctets (s : Glyphs) : Octets :=
  s.flatMap Glyph.toOctets

/-- A text for readers: what its octets spell in UTF-8, with U+FFFD for every run that spells
nothing. -/
def readable (s : Glyphs) : List Char :=
  (Text.Utf8.runs s.toOctets).map fun
    | .inl c => c
    | .inr _ => '\uFFFD'

/-- What octets spell in a character encoding; those that spell nothing stay. -/
def decode (charset : Text.Charset) (s : Octets) : Glyphs :=
  match charset with
  | .utf8 =>
    (Text.Utf8.runs s).flatMap fun
      | .inl c => [.char c]
      | .inr bs => bs.map .octet
  | .ascii => s.map .ofOctet
  | .latin1 => s.map fun b => .char (Char.ofNat b.toNat)

/-- The blanks in front, and the text after them. -/
def blanks (s : Glyphs) : Glyphs × Glyphs :=
  s.span Glyph.isBlank

end Glyphs

end Dataspace.Mime
