import Dataspace.Json.Reader
import Dataspace.Mime.Token

/-!
# Parameters of header fields

After the first semicolon of a structured field come parameters: `name="value"`. A value may be
given in numbered sections, `name*0=…` and `name*1=…`, and with octets by their hexadecimal numbers
and a character encoding, `name*=utf-8''…`. `parameters` reads them, `resolve` puts the sections of
each name together.

An entry that is no parameter is passed over. Slips in the marks of a sectioned value are reported
instead (`HeaderFault`): after them nothing can be said of the message. A value in an encoding that
is not one of `Text.Charset` is read in ASCII, as in an encoded word; failures of further encodings
are left aside.
-/

namespace Dataspace.Mime

open Text (Octets)
open Glyph (char)

/-- Why a header field cannot be understood at all. -/
inductive HeaderFault where
  /-- The text ends after the asterisk of a name. -/
  | cutShort
  /-- The quotes around a value hold a character encoding and no value. -/
  | noValue
  /-- The number of a section has too many digits. -/
  | longNumber (digits : Nat)
deriving DecidableEq, Repr

structure Parameter where
  name : Glyphs
  /-- The number of the section; a value in one piece is section zero. -/
  part : Nat
  /-- Whether octets stand by their numbers. -/
  extended : Bool
  charset : Text.Charset
  /-- The value as it stands; it is missing if quotes hold no more than a character encoding. -/
  value : Option Glyphs
deriving DecidableEq

namespace Parameter

/-- Why an entry is no parameter, or why the reading ends. -/
inductive Stop where
  | refused
  | fault (f : HeaderFault)

abbrev Reading := Except Stop

def orRefuse {α : Type} : Option α → Reading α
  | some a => .ok a
  | none => .error .refused

def firstIs (c : Char) : Glyphs → Bool
  | u :: _ => u = .char c
  | [] => false

/-! ## Values -/

/-- A value as it stands: a quoted string, or a run of characters; and the text after it. -/
def plainValue (s : Glyphs) : Reading (Glyphs × Glyphs) :=
  orRefuse ((Token.surrounded
    (fun r => (Token.quotedContent r).or (Token.run Token.valueEnds r)) s).map
      fun (_, value, rest) => (value, rest))

/-- The inside of a quoted value: blanks as one space each, and no backslashes before quotes. -/
def looseValue : (fuel : Nat) → Glyphs → Glyphs
  | 0, _ => []
  | _ + 1, [] => []
  | fuel + 1, u :: r =>
    if u.isGap then .char ' ' :: looseValue fuel (Glyphs.blanks r).2
    else if u = .char '"' then u :: looseValue fuel r
    else
      let (text, rest) := Token.unescaped ['"'] false (u :: r)
      text ++ looseValue fuel rest

/-- Whether quotes hold an extended value: a character encoding with its mark in the first section,
a run of characters in the later ones. -/
def quotedExtended (part : Nat) (content : Glyphs) : Reading Bool :=
  if part = 0 then
    if firstIs (Char.ofNat 39) content then .ok true
    else
      (orRefuse (Token.run Token.nameEnds content)).map fun (_, rest) =>
        firstIs (Char.ofNat 39) rest
  else
    match Token.run Token.valueEnds content with
    | some (_, rest) => .ok rest.isEmpty
    | none => .ok false

/-- The text after a language, which stands between two marks after the character encoding. -/
def afterLanguage (s : Glyphs) : Reading Glyphs :=
  match s with
  | [] => .ok []
  | u :: r =>
    if u = .char (Char.ofNat 39) then .ok r
    else
      match Token.run Token.nameEnds s with
      | some (_, .char c :: r) => if c = Char.ofNat 39 then .ok r else .error .refused
      | _ => .error .refused

/-- The value after the sign of equality. `outside` is the text after the quotes if quotes hold an
extended value, `s` the text to be read. -/
def valueOf (name : Glyphs) (part : Nat) (extended : Bool) (outside : Option Glyphs) (s : Glyphs) :
    Reading (Parameter × Glyphs) := do
  let marked := firstIs (Char.ofNat 39) s
  let (first, rest) ← if marked then pure ([], s) else plainValue s
  if (!extended || 0 < part) && !firstIs (Char.ofNat 39) rest then
    return (⟨name, part, extended, .ascii, some first⟩, outside.getD rest)
  else
    match rest with
    | [] => return (⟨name, part, extended, .ascii, some first⟩, outside.getD [])
    | mark :: r =>
      if mark ≠ .char (Char.ofNat 39) then throw .refused
      let charset := if marked then .ascii else EncodedWord.charsetOf first
      let r ← afterLanguage r
      match outside with
      | some after =>
        let value := if r.isEmpty then none else some (looseValue r.length r)
        return (⟨name, part, extended, charset, value⟩, after)
      | none =>
        let (value, rest) ← plainValue r
        return (⟨name, part, extended, charset, some value⟩, rest)

/-! ## Entries -/

/-- The number of a section after an asterisk, if there is one. -/
def section? (s : Glyphs) : Reading (Option (Nat × Glyphs)) :=
  let isDigit : Glyph → Bool
    | .char c => Json.isDigit c
    | .octet _ => false
  match s.span isDigit with
  | ([], _) => .ok none
  | (digits, rest) =>
    if 4300 < digits.length then .error (.fault (.longNumber digits.length))
    else .ok (some (Json.digitsValue (Glyphs.readable digits), rest))

/-- What the asterisks after a name say: the section, whether the value is extended, and the text
after them. -/
def marks (s : Glyphs) : Reading (Nat × Bool × Glyphs) :=
  match s with
  | .char '*' :: r => do
    let (part, s) := (← section? r).getD (0, s)
    match s with
    | [] => throw .refused
    | .char '*' :: rest => return (part, true, rest)
    | _ => return (part, false, s)
  | _ => .ok (0, false, s)

def read (s : Glyphs) : Reading (Parameter × Glyphs) := do
  let (_, name, rest) ← orRefuse (Token.surrounded (Token.run Token.nameEnds) s)
  let name := Text.stripBy Glyph.isBlank name
  if rest.isEmpty || firstIs ';' rest then return (⟨name, 0, false, .ascii, some []⟩, rest)
  let (part, extended, rest) ← marks rest
  match rest with
  | [] => throw (.fault .cutShort)
  | sign :: r =>
    if sign ≠ .char '=' then throw .refused
    let (_, r) := Token.gaps r
    match if extended then Token.quotedContent r else none with
    | none => valueOf name part extended none r
    | some (content, after) =>
      let after := (Token.gaps after).2
      if ← quotedExtended part content then valueOf name part extended (some after) content
      else valueOf name part extended none r

/-- All entries that are parameters. What follows a parameter up to the next semicolon is passed
over, and so is an entry that is none. `fuel` exceeds the length of the text. -/
def readAll : (fuel : Nat) → Glyphs → Except HeaderFault (List Parameter)
  | 0, _ => .ok []
  | fuel + 1, s =>
    if s.isEmpty then .ok []
    else
      match read s with
      | .error (.fault f) => .error f
      | .error .refused =>
        let (_, r) := Token.gaps s
        readAll fuel ((Token.upToSemicolon r).2.drop 1)
      | .ok (p, rest) =>
        (readAll fuel ((Token.upToSemicolon rest).2.drop 1)).map (p :: ·)

/-! ## Values in sections -/

/-- A text with the octets that its percent signs number. -/
def percentDecoded : Octets → Octets
  | 0x25 :: a :: b :: r =>
    match hexOctet? a b with
    | some x => x :: percentDecoded r
    | none => 0x25 :: percentDecoded (a :: b :: r)
  | b :: r => b :: percentDecoded r
  | [] => []

/-- A text with octets among its characters, with the characters that its percent signs number. -/
def percentDecodedMixed : Glyphs → Glyphs
  | .char '%' :: a :: b :: r =>
    match a.toOctet?, b.toOctet? with
    | some x, some y =>
      match hexOctet? x y with
      | some z => .char (Char.ofNat z.toNat) :: percentDecodedMixed r
      | none => .char '%' :: percentDecodedMixed (a :: b :: r)
    | _, _ => .char '%' :: percentDecodedMixed (a :: b :: r)
  | u :: r => u :: percentDecodedMixed r
  | [] => []

/-- The text of a section. -/
def text (charset : Text.Charset) (p : Parameter) : Except HeaderFault Glyphs :=
  match p.value with
  | none => .error .noValue
  | some value =>
    if !p.extended then .ok value
    else if value.any Glyph.isOctet then .ok (percentDecodedMixed value)
    else .ok (Glyphs.decode charset (percentDecoded value.toOctets))

/-- The texts of sections in ascending order. A section that does not follow the one before it
counts only if it is extended. -/
def texts (charset : Text.Charset) : (next : Nat) → List Parameter → Except HeaderFault Glyphs
  | _, [] => .ok []
  | next, p :: r =>
    if p.part ≠ next && !p.extended then texts charset next r
    else
      match p.text charset with
      | .error f => .error f
      | .ok s => (texts charset (next + 1) r).map (s ++ ·)

/-- The value that the sections of one name make. Of two that begin it, the first counts. -/
def combined (sections : List Parameter) : Except HeaderFault Glyphs :=
  match sections.mergeSort fun p q => p.part ≤ q.part with
  | [] => .ok []
  | first :: second :: r =>
    if !first.extended && second.part = 0 then texts first.charset 0 [first]
    else texts first.charset 0 (first :: second :: r)
  | [first] => texts first.charset 0 [first]

/-- The names in the order in which they first come. -/
def names (ps : List Parameter) : List Glyphs :=
  (ps.map (·.name)).eraseDups

def resolve (ps : List Parameter) : Except HeaderFault (List (Glyphs × Glyphs)) :=
  (names ps).mapM fun name => do
    return (name, ← combined (ps.filter fun p => p.name = name))

/-- Parameters as they show; a name without a value stands alone. -/
def shown (pairs : List (Glyphs × Glyphs)) : Glyphs :=
  let entries := pairs.map fun (name, value) =>
    if value.isEmpty then name else name ++ .char '=' :: Token.quote value
  match List.intercalate [.char ';', .char ' '] entries with
  | [] => []
  | s => .char ' ' :: s

end Parameter

def parametersShown (s : Glyphs) : Except HeaderFault Glyphs := do
  return Parameter.shown (← Parameter.resolve (← Parameter.readAll (s.length + 1) s))

end Dataspace.Mime
