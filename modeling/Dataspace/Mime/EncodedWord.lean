import Dataspace.Mime.Glyph
import Dataspace.Mime.TransferEncoding

/-!
# Encoded words

A header text may hold words such as `=?utf-8?q?na=C3=AFve?=`: a character encoding, `q` or `b`
for quoted printables or base64, and the text. Octets that spell nothing in the character encoding
stay octets. The encodings of `Text.Charset` are the ones that are told apart here: words in any
other are read in ASCII, which is right for a label that names no encoding, and leaves aside what
the tables of further encodings would make of them.
-/

namespace Dataspace.Mime.EncodedWord

open Text (Octets)
open Glyph (char)

/-- The text up to the first end mark, and the text after it. -/
def untilEnd : Glyphs → Option (Glyphs × Glyphs)
  | [] => none
  | u :: r =>
    match u, r with
    | .char '?', .char '=' :: r' => some ([], r')
    | _, _ => (untilEnd r).map fun (word, rest) => (u :: word, rest)

def isHexDigit : Glyph → Bool
  | .char c => (Text.hexValue? c).isSome
  | .octet _ => false

/-- What looks like the end mark belongs to the word if the text has not come yet and two
hexadecimal digits follow: it is then the sign before an octet. -/
def belongsToWord (word rest : Glyphs) : Bool :=
  word.count (.char '?') < 2 &&
    (match rest with
      | a :: b :: _ => isHexDigit a && isHexDigit b
      | _ => false)

/-- The word without its outer marks, and the text after it. -/
def split (s : Glyphs) : Option (Glyphs × Glyphs) := do
  let (word, rest) ← untilEnd s
  if belongsToWord word rest then
    let (more, rest) := (untilEnd rest).getD (rest, [])
    return (word ++ [.char '?', .char '='] ++ more, rest)
  else return (word, rest)

/-- The octets that quoted printables in a word spell; an underscore spells a space. -/
def qOctets : Octets → Octets
  | 0x3D :: a :: b :: r =>
    match hexOctet? a b with
    | some x => x :: qOctets r
    | none => 0x3D :: qOctets (a :: b :: r)
  | b :: r => (if b = 0x5F then 0x20 else b) :: qOctets r
  | [] => []

/-- The octets that the text of a word spells in the named way. -/
def octets? (coding : Glyphs) (s : Octets) : Option Octets :=
  match coding with
  | [.char 'q'] => some (qOctets s)
  | [.char 'Q'] => some (qOctets s)
  | [.char 'b'] => some (Base64.decode s)
  | [.char 'B'] => some (Base64.decode s)
  | _ => none

/-- The encoding that a label names, with ASCII for any other than the known ones and for a label
that is no text. -/
def charsetOf (label : Glyphs) : Text.Charset :=
  if label.any Glyph.isOctet then .ascii
  else (Text.Charset.ofLabel? label.readable).getD .ascii

/-- The text of a word. A language may follow the encoding after an asterisk. -/
def decode? (word : Glyphs) : Option Glyphs :=
  match Text.splitOn (.char '?') word with
  | [label, coding, text] => do
    let octets ← octets? coding (← text.mapM Glyph.toOctet?)
    let label := label.takeWhile (· ≠ .char '*')
    if label.contains (.char '\x00') then none
    else return Glyphs.decode (charsetOf label) octets
  | _ => none

/-- The text of the encoded word in front, and the text after the word. -/
def read : Glyphs → Option (Glyphs × Glyphs)
  | .char '=' :: .char '?' :: r => do
    let (word, rest) ← split r
    return (← decode? word, rest)
  | _ => none

end Dataspace.Mime.EncodedWord
