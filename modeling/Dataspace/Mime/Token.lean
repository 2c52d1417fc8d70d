import Dataspace.Mime.EncodedWord

/-!
# Tokens of header fields

The structured fields of a message consist of tokens, quoted strings, comments and blanks. The
readers here return the text of what they read, in the form in which it is shown, and the rest of
the input. Nothing is refused that can be read at all: a comment or a quoted string may lack its
end, and what fits nowhere is read as a phrase. Comments may stand within one another; how many of
them there is room for on a stack is left aside.

A quoted string shows with a backslash before quotes and backslashes, a comment with one before
parentheses and backslashes.
-/

namespace Dataspace.Mime.Token

open Glyph (char)

/-! ## Classes of characters -/

/-- What ends a word of a phrase. -/
def specials : List Char := ['(', ')', '<', '>', '@', ',', ':', ';', '.', '\\', '"', '[', ']']

/-- What ends a phrase. -/
def phraseEnds : List Char := ['<', '>', ')', '@', ',', ':', ';', '\\', '[', ']']

def atomEnds : List Char := specials ++ [' ', '\t']

def tokenEnds : List Char :=
  ['(', ')', '<', '>', '@', ',', ':', ';', '\\', '"', '[', ']', '/', '?', '=', ' ', '\t']

/-- What ends the value of a parameter that may have percent signs. -/
def valueEnds : List Char := tokenEnds ++ ['*', Char.ofNat 39]

/-- What ends the name of a parameter. -/
def nameEnds : List Char := valueEnds ++ ['%']

/-- A run of characters none of which ends it, if there is one. -/
def run (ends : List Char) (s : Glyphs) : Option (Glyphs × Glyphs) :=
  match s.span fun u => !u.isOneOf ends with
  | ([], _) => none
  | found => some found

/-! ## Comments and blanks -/

/-- The characters up to a gap or one of the ends. A character after a backslash is no end. -/
def unescaped (ends : List Char) : (escaped : Bool) → Glyphs → Glyphs × Glyphs
  | _, [] => ([], [])
  | escaped, u :: r =>
    if u.isGap then ([], u :: r)
    else if u = .char '\\' && !escaped then unescaped ends true r
    else if u.isOneOf ends && !escaped then ([], u :: r)
    else
      let (s, rest) := unescaped ends false r
      (u :: s, rest)

/-- A text with a backslash before the given characters. -/
def escape (which : List Char) (s : Glyphs) : Glyphs :=
  s.flatMap fun u => if u.isOneOf which then [.char '\\', u] else [u]

/-- The inside of a comment, shown, and the text after its closing parenthesis. `fuel` is at least
the length of the text. -/
def commentInside : (fuel : Nat) → Glyphs → Glyphs × Glyphs
  | 0, s => ([], s)
  | _ + 1, [] => ([], [])
  | fuel + 1, u :: r =>
    if u = .char ')' then ([], r)
    else
      let (shown, rest) :=
        if u.isGap then Glyphs.blanks (u :: r)
        else if u = .char '(' then
          let (inside, rest) := commentInside fuel r
          (.char '(' :: inside ++ [.char ')'], rest)
        else
          let (s, rest) := unescaped ['(', ')'] false (u :: r)
          (escape ['\\', '(', ')'] s, rest)
      let (more, after) := commentInside fuel rest
      (shown ++ more, after)

/-- Blanks and comments in front, shown, and the text after them. -/
def gapsFrom : (fuel : Nat) → Glyphs → Glyphs × Glyphs
  | 0, s => ([], s)
  | _ + 1, [] => ([], [])
  | fuel + 1, u :: r =>
    if u.isGap then
      let (blanks, rest) := Glyphs.blanks (u :: r)
      let (more, after) := gapsFrom fuel rest
      (blanks ++ more, after)
    else if u = .char '(' then
      let (inside, rest) := commentInside r.length r
      let (more, after) := gapsFrom fuel rest
      (.char '(' :: inside ++ .char ')' :: more, after)
    else ([], u :: r)

def gaps (s : Glyphs) : Glyphs × Glyphs :=
  gapsFrom s.length s

/-- Something with blanks and comments around it: the shown text of all, the thing itself, and the
text after it. -/
def surrounded (thing : Glyphs → Option (Glyphs × Glyphs)) (s : Glyphs) :
    Option (Glyphs × Glyphs × Glyphs) := do
  let (before, r) := gaps s
  let (found, r) ← thing r
  let (after, rest) := gaps r
  return (before ++ found ++ after, found, rest)

/-! ## Quoted strings -/

/-- A piece of the inside of a quoted string. -/
inductive Piece where
  | blanks (s : Glyphs)
  | word (s : Glyphs)
  | text (s : Glyphs)

/-- The next piece of the inside of a quoted string. -/
def piece (s : Glyphs) : Piece × Glyphs :=
  match s with
  | [] => (.text [], [])
  | u :: _ =>
    if u.isGap then
      let (blanks, rest) := Glyphs.blanks s
      (.blanks blanks, rest)
    else
      match EncodedWord.read s with
      | some (word, rest) => (.word word, rest)
      | none =>
        let (text, rest) := unescaped ['"'] false s
        (.text text, rest)

/-- The pieces up to the closing quote, and the text after it. -/
def pieces : (fuel : Nat) → Glyphs → List Piece × Glyphs
  | 0, s => ([], s)
  | _ + 1, [] => ([], [])
  | fuel + 1, u :: r =>
    if u = .char '"' then ([], r)
    else
      let (p, rest) := piece (u :: r)
      let (ps, after) := pieces fuel rest
      (p :: ps, after)

/-- The text that pieces make. Blanks between two encoded words do not count. -/
def joined : List Piece → Glyphs
  | .word a :: .blanks _ :: .word b :: r => a ++ joined (.word b :: r)
  | .word s :: r => s ++ joined r
  | .blanks s :: r => s ++ joined r
  | .text s :: r => s ++ joined r
  | [] => []

/-- The content of a quoted string and the text after it, if there is one. -/
def quotedContent : Glyphs → Option (Glyphs × Glyphs)
  | .char '"' :: r =>
    let (ps, rest) := pieces r.length r
    some (joined ps, rest)
  | _ => none

def quote (s : Glyphs) : Glyphs :=
  .char '"' :: escape ['\\', '"'] s ++ [.char '"']

/-- A quoted string as it shows. -/
def quotedShown (s : Glyphs) : Option (Glyphs × Glyphs) :=
  (quotedContent s).map fun (content, rest) => (quote content, rest)

/-! ## Phrases -/

def atom (s : Glyphs) : Option (Glyphs × Glyphs) :=
  match EncodedWord.read s with
  | some found => some found
  | none => run atomEnds s

/-- A word of a phrase: an atom or a quoted string, with what surrounds it. -/
def word (s : Glyphs) : Option (Glyphs × Glyphs) :=
  (surrounded (fun r => (quotedShown r).or (atom r)) s).map fun (shown, _, rest) => (shown, rest)

/-- One part of a text without structure: a character that ends phrases, a point, a word, or blanks
and comments that no word follows. -/
def loosePart (s : Glyphs) : Glyphs × Glyphs :=
  match s with
  | [] => ([], [])
  | u :: r =>
    if u.isOneOf phraseEnds || u = .char '.' then ([u], r)
    else (word s).getD (gaps s)

/-- A text without structure, up to a stop that lies in no comment and no quoted string. -/
def loose (stops : List Char) : (fuel : Nat) → Glyphs → Glyphs × Glyphs
  | 0, s => ([], s)
  | _ + 1, [] => ([], [])
  | fuel + 1, u :: r =>
    if u.isOneOf stops then ([], u :: r)
    else
      let (part, rest) := loosePart (u :: r)
      let (more, after) := loose stops fuel rest
      (part ++ more, after)

/-- A text up to the semicolon that ends it, shown, and the text from the semicolon on. -/
def upToSemicolon (s : Glyphs) : Glyphs × Glyphs :=
  loose [';'] s.length s

/-- A token with what surrounds it, shown. -/
def token (s : Glyphs) : Option (Glyphs × Glyphs) :=
  (surrounded (run tokenEnds) s).map fun (shown, _, rest) => (shown, rest)

end Dataspace.Mime.Token
