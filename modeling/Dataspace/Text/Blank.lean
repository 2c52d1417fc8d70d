/-!
# Blank characters

Three sets of blanks are in use, and they are different sets:

* `isBlank`: the characters that surround a text without being part of it (configured lists,
  contract bodies given as text, parameters of header fields);
* `isWhiteSpace`: the Unicode property of that name, which leaves out the four separators
  U+001C to U+001F (numbers given as configuration text);
* `isBlankOctet`: the six ASCII blanks of a body given as octets.
-/

namespace Dataspace.Text

/-- The Unicode property `White_Space`. -/
def isWhiteSpace (c : Char) : Bool :=
  let n := c.toNat
  (0x09 ≤ n && n ≤ 0x0D) || n == 0x20 || n == 0x85 || n == 0xA0 || n == 0x1680 ||
  (0x2000 ≤ n && n ≤ 0x200A) || n == 0x2028 || n == 0x2029 || n == 0x202F || n == 0x205F ||
  n == 0x3000

/-- White space, and the four information separators U+001C to U+001F. -/
def isBlank (c : Char) : Bool :=
  isWhiteSpace c || (0x1C ≤ c.toNat && c.toNat ≤ 0x1F)

/-- Space, tab, line feed, vertical tab, form feed and carriage return. -/
def isBlankOctet (b : UInt8) : Bool :=
  b == 0x20 || (0x09 ≤ b && b ≤ 0x0D)

/-- A text without the elements of a class at its two ends. -/
def stripBy {α : Type} (p : α → Bool) (s : List α) : List α :=
  ((s.dropWhile p).reverse.dropWhile p).reverse

/-- The pieces of a list between the elements equal to `sep`; there is always at least one. -/
def splitOn {α : Type} [DecidableEq α] (sep : α) : List α → List (List α)
  | [] => [[]]
  | c :: r =>
    match splitOn sep r with
    | [] => [[]]
    | piece :: pieces => if c = sep then [] :: piece :: pieces else (c :: piece) :: pieces

end Dataspace.Text
