import Dataspace.Json.Basic
import Dataspace.Number.Decimal
import Dataspace.Text.Charset

/-!
# Writing JSON

Two styles of text are written. A message header is `Style.plain`: a space after each comma and
colon, and only ASCII. A contract document is `Style.compact`: no blanks, and every character but
the quote, the backslash and the controls as it is.
-/

namespace Dataspace.Json

structure Style where
  comma : String
  colon : String
  /-- Whether a character is written as it is if it needs no escape for the sake of syntax. -/
  shows : Char → Bool

namespace Style

def plain : Style := ⟨", ", ": ", fun c => 0x20 ≤ c.toNat && c.toNat < 0x7F⟩

def compact : Style := ⟨",", ":", fun c => 0x20 ≤ c.toNat⟩

end Style

/-- An escape by one sixteen-bit unit. -/
def unitEscape (n : Nat) : List Char :=
  '\\' :: 'u' :: Text.hex 4 n

/-- An escape by the number of the character, in two units above U+FFFF. -/
def codeEscape (c : Char) : List Char :=
  let n := c.toNat
  if n < 0x10000 then unitEscape n
  else
    unitEscape (0xD800 + (n - 0x10000) / 0x400) ++ unitEscape (0xDC00 + (n - 0x10000) % 0x400)

/-- One character inside quotes. -/
def escapeChar (style : Style) (c : Char) : List Char :=
  if c = '"' then ['\\', '"']
  else if c = '\\' then ['\\', '\\']
  else if c = '\n' then ['\\', 'n']
  else if c = '\r' then ['\\', 'r']
  else if c = '\t' then ['\\', 't']
  else if c.toNat = 0x08 then ['\\', 'b']
  else if c.toNat = 0x0C then ['\\', 'f']
  else if style.shows c then [c]
  else codeEscape c

def writeText (style : Style) (s : String) : List Char :=
  '"' :: s.toList.flatMap (escapeChar style) ++ ['"']

/-- The pieces with a separator between them. -/
def joinWith (separator : List Char) : List (List Char) → List Char
  | [] => []
  | [piece] => piece
  | piece :: pieces => piece ++ separator ++ joinWith separator pieces

mutual

def writeChars (style : Style) : Json → List Char
  | null => "null".toList
  | bool b => (if b then "true" else "false").toList
  | int i => (Decimal.ofInt i).toList
  | float x => (Decimal.render "Infinity" "NaN" x).toList
  | str s => writeText style s
  | arr items => '[' :: joinWith style.comma.toList (writeItems style items) ++ [']']
  | obj members => '{' :: joinWith style.comma.toList (writeMembers style members) ++ ['}']

def writeItems (style : Style) : List Json → List (List Char)
  | [] => []
  | v :: r => writeChars style v :: writeItems style r

def writeMembers (style : Style) : List (String × Json) → List (List Char)
  | [] => []
  | (name, v) :: r =>
    (writeText style name ++ style.colon.toList ++ writeChars style v) :: writeMembers style r

end

/-- The text of a value. -/
def write (style : Style) (v : Json) : String :=
  String.ofList (writeChars style v)

end Dataspace.Json
