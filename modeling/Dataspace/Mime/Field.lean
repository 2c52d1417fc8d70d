import Dataspace.Mime.Line
import Dataspace.Mime.Parameter

/-!
# Header fields

A header is a run of lines `name: value`, the value going on in the lines that begin with a blank.
Three fields have structure: `Content-Type`, `Content-Disposition` and `Content-Transfer-Encoding`.
They are understood in two steps. First the field is brought into the form in which it shows
(`mediaTypeShown` and its companions), which settles comments, encoded words and values in sections;
then `shownParameter?` and `MediaType.ofShown` look things up in that form.
-/

namespace Dataspace.Mime

open Text (Octets)

structure Field where
  /-- The name in lower case. -/
  name : List Char
  value : Glyphs
deriving DecidableEq

namespace Field

/-- The octets that a name may consist of. -/
def isNameOctet (b : UInt8) : Bool :=
  0x21 ≤ b && b ≤ 0x7E && b ≠ 0x3A

def isGapOctet (b : UInt8) : Bool :=
  b == 0x20 || b == 0x09

/-- Whether a line goes on with the value of the line before. -/
def isContinuation : Octets → Bool
  | b :: _ => isGapOctet b
  | [] => false

/-- Whether a line is the mark that some stores of messages put before each. -/
def isEnvelope (line : Octets) : Bool :=
  (Text.utf8 "From ").isPrefixOf line

/-- Whether a line can belong to a header. -/
def isHeaderLine (line : Octets) : Bool :=
  isEnvelope line || isContinuation line || (line.dropWhile isNameOctet).head? = some 0x3A

/-- The field of a line and its continuations. A line without a name is no field. -/
def ofLines? (line : Octets) (more : List Octets) : Option Field :=
  match line.span (· ≠ 0x3A) with
  | ([], _) => none
  | (name, rest) =>
    if isEnvelope line then none
    else
      let value := (rest.drop 1).dropWhile isGapOctet ++ more.flatten
      some ⟨name.map fun b => (Char.ofNat b.toNat).toLower,
        Glyphs.ofOctets (value.filter fun b => !isLineEnd b)⟩

/-- The continuations in front of the lines, and every other line with its continuations. -/
def grouped : List Octets → List Octets × List (Octets × List Octets)
  | [] => ([], [])
  | line :: r =>
    let (more, groups) := grouped r
    if isContinuation line then (line :: more, groups) else ([], (line, more) :: groups)

/-- The fields of the lines of a header. -/
def ofHeader (lines : List Octets) : List Field :=
  (grouped lines).2.filterMap fun (line, more) => ofLines? line more

/-- The header lines and the lines of the body. A blank line between them belongs to neither, and an
envelope mark at the end of a header belongs to the body. -/
def splitHeader (lines : List Octets) : List Octets × List Octets :=
  let (header, rest) := lines.span isHeaderLine
  let body :=
    match rest with
    | line :: r => if Line.isEmpty line then r else rest
    | [] => []
  match header.getLast? with
  | some line =>
    if isEnvelope line && 1 < header.length then (header.dropLast, line :: body) else (header, body)
  | none => (header, body)

/-- The value of the first field of a name. -/
def find? (fields : List Field) (name : String) : Option Glyphs :=
  (fields.find? fun f => f.name = name.toList).map (·.value)

/-! ## Structured fields as they show -/

/-- A text without structure, and the parameters after its first semicolon. -/
def looseShown (s : Glyphs) : Except HeaderFault Glyphs :=
  match Token.upToSemicolon s with
  | (text, []) => .ok text
  | (text, semicolon :: r) => (parametersShown r).map fun ps => text ++ semicolon :: ps

/-- A token in front, if there is one, and what follows. -/
def tokenThen (rest : Glyphs → Except HeaderFault Glyphs) (s : Glyphs) :
    Except HeaderFault Glyphs :=
  match Token.token s with
  | none => looseShown s
  | some (shown, r) => (rest r).map (shown ++ ·)

/-- The field `Content-Type`: a type, a slash, a subtype, and parameters. -/
def mediaTypeShown (s : Glyphs) : Except HeaderFault (List Char) :=
  (tokenThen (fun r =>
    match r with
    | .char '/' :: r => (tokenThen looseShown r).map (.char '/' :: ·)
    | _ => looseShown r) s).map Glyphs.readable

/-- The field `Content-Disposition`: a word, and parameters. -/
def dispositionShown (s : Glyphs) : Except HeaderFault (List Char) :=
  (tokenThen looseShown s).map Glyphs.readable

/-- The field `Content-Transfer-Encoding`: a name. -/
def transferEncodingShown (s : Glyphs) : List Char :=
  Glyphs.readable <|
    match Token.token s with
    | none => (Token.loose [] s.length s).1
    | some (shown, r) => shown ++ (Token.loose [] r.length r).1

end Field

/-! ## Looking things up -/

namespace Shown

/-- A text without the backslashes before one character. -/
def withoutBackslashes (c : Char) : List Char → List Char
  | '\\' :: d :: r =>
    if d = c then c :: withoutBackslashes c r else '\\' :: withoutBackslashes c (d :: r)
  | d :: r => d :: withoutBackslashes c r
  | [] => []

/-- A text without the quotes or angle brackets around it. -/
def unquote (s : List Char) : List Char :=
  match s with
  | '"' :: r =>
    if r.getLast? = some '"' then
      withoutBackslashes '"' (withoutBackslashes '\\' r.dropLast)
    else s
  | '<' :: r => if r.getLast? = some '>' then r.dropLast else s
  | _ => s

/-- The entries between semicolons. A semicolon after an odd number of quotes, those after a
backslash not counted, is part of its entry. -/
def entries (odd : Bool) (previous : Option Char) : List Char → List (List Char)
  | [] => [[]]
  | c :: r =>
    if c = ';' && !odd then [] :: entries false none r
    else
      let odd := if c = '"' && previous ≠ some '\\' then !odd else odd
      match entries odd (some c) r with
      | [] => [[c]]
      | entry :: more => (c :: entry) :: more

/-- Name, in lower case, and value of an entry. -/
def nameAndValue (entry : List Char) : List Char × List Char :=
  let strip := Text.stripBy Text.isBlank
  let (name, rest) := entry.span (· ≠ '=')
  ((strip name).map Char.toLower, strip (rest.drop 1))

/-- The value of the first entry of a name. -/
def parameter? (name : String) (shown : List Char) : Option (List Char) :=
  (((entries false none shown).map nameAndValue).find? fun (n, _) => n = name.toList).map
    fun (_, value) => unquote value

end Shown

/-- What a body consists of: a type and a subtype, in lower case. -/
structure MediaType where
  main : List Char
  sub : List Char
deriving DecidableEq, Repr

namespace MediaType

def plainText : MediaType := ⟨"text".toList, "plain".toList⟩

def message : MediaType := ⟨"message".toList, "rfc822".toList⟩

def deliveryStatus : MediaType := ⟨"message".toList, "delivery-status".toList⟩

def digest : MediaType := ⟨"multipart".toList, "digest".toList⟩

def isMultipart (t : MediaType) : Bool :=
  t.main = "multipart".toList

def isMessage (t : MediaType) : Bool :=
  t.main = "message".toList

/-- The type that a field shows; what is no pair of names counts as plain text. -/
def ofShown (shown : List Char) : MediaType :=
  match Text.splitOn '/'
      ((Text.stripBy Text.isBlank (shown.takeWhile (· ≠ ';'))).map Char.toLower) with
  | [main, sub] => ⟨main, sub⟩
  | _ => plainText

end MediaType

end Dataspace.Mime
