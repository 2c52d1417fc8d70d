import Dataspace.Text.Blank

/-!
# Characters as octets

The three character encodings a reply can be read with. `Charset.decode` and `Charset.encode` either
succeed or say where the first fault lies and what it is; `DecodingFault.message` and
`EncodingFault.message` word it.

A decoding fault covers the octets from the start of the broken character to the last octet that
could still have belonged to it, so that a character cut short by the end of the input is one
fault. An encoding fault covers the longest run of characters that the encoding lacks.

A text may also come with halves of two-unit characters in it that stand for themselves. It is no
`String` but a `Broken` text, a list of numbers, and no encoding has all of it (`Broken.fault`).
-/

namespace Dataspace.Text

/-- Octets as they travel. -/
abbrev Octets := List UInt8

inductive Charset where
  | utf8
  | ascii
  | latin1
deriving DecidableEq, Repr

namespace Charset

def name : Charset → String
  | utf8 => "utf-8"
  | ascii => "ascii"
  | latin1 => "latin-1"

def ofName? (s : String) : Option Charset :=
  [utf8, ascii, latin1].find? (·.name == s)

/-- The other names in use, in lower case. -/
def aliases : Charset → List String
  | utf8 => ["utf_8", "utf8", "u8", "utf", "utf8_ucs2", "utf8_ucs4", "cp65001"]
  | ascii =>
    ["ascii", "us_ascii", "us", "646", "ansi_x3.4_1968", "ansi_x3_4_1968", "ansi_x3.4_1986",
      "cp367", "csascii", "ibm367", "iso646_us", "iso_646.irv_1991", "iso_ir_6"]
  | latin1 =>
    ["latin_1", "latin1", "latin", "l1", "iso_8859_1", "iso8859_1", "iso8859", "8859", "cp819",
      "csisolatin1", "ibm819", "iso_8859_1_1987", "iso_ir_100"]

/-- A name in lower case, with one underscore for the signs between two letters or digits and
nothing for those at the ends. -/
def plainName (s : List Char) : List Char :=
  let folded := s.map fun c => if c.isAlphanum || c = '.' then c.toLower else '_'
  List.intercalate ['_'] ((splitOn '_' folded).filter (!·.isEmpty))

/-- The encoding that a label names. -/
def ofLabel? (label : List Char) : Option Charset :=
  [utf8, ascii, latin1].find? fun charset =>
    charset.aliases.contains (String.ofList (plainName label))

end Charset

/-! ## Numbers in base sixteen -/

/-- The lower-case hexadecimal digit of a number below sixteen. -/
def hexDigit (n : Nat) : Char :=
  if n < 10 then Char.ofNat (48 + n) else Char.ofNat (87 + n)

/-- The last `width` hexadecimal digits of `n`. -/
def hex : (width n : Nat) → List Char
  | 0, _ => []
  | w + 1, n => hex w (n / 16) ++ [hexDigit (n % 16)]

/-- The value of a hexadecimal digit of either case. -/
def hexValue? (c : Char) : Option Nat :=
  let n := c.toNat
  if 48 ≤ n && n ≤ 57 then some (n - 48)
  else if 97 ≤ n && n ≤ 102 then some (n - 87)
  else if 65 ≤ n && n ≤ 70 then some (n - 55)
  else none

/-- A number of a character, in the shortest of the three escape forms that holds it. -/
def numericEscape (n : Nat) : List Char :=
  if n < 0x100 then '\\' :: 'x' :: hex 2 n
  else if n < 0x10000 then '\\' :: 'u' :: hex 4 n
  else '\\' :: 'U' :: hex 8 n

/-! ## Faults -/

inductive DecodingFlaw where
  /-- The octet begins no character. -/
  | strayOctet
  /-- The octets so far cannot be continued by the next one. -/
  | brokenSequence
  /-- The input ends inside a character. -/
  | truncated
  /-- The octet lies above the last code of the encoding. -/
  | outsideRange
  /-- The input ends inside a unit of two or four octets. -/
  | truncatedUnit
  /-- The number stands for no character. -/
  | outsideUnicode
deriving DecidableEq, Repr

structure DecodingFault where
  encoding : String
  /-- The number of octets before the fault. -/
  position : Nat
  /-- The number of octets it covers. -/
  extent : Nat
  /-- The first of them. -/
  octet : UInt8
  flaw : DecodingFlaw
deriving DecidableEq, Repr

structure EncodingFault where
  charset : Charset
  /-- The number of characters before the fault. -/
  position : Nat
  /-- The number of characters it covers. -/
  extent : Nat
  /-- The number of the first of them. -/
  code : Nat
deriving DecidableEq, Repr

/-- The number of codes of an encoding that has one octet to a character. -/
def Charset.limit : Charset → Nat
  | ascii => 128
  | _ => 256

def DecodingFlaw.text : DecodingFlaw → String
  | strayOctet => "invalid start byte"
  | brokenSequence => "invalid continuation byte"
  | truncated => "unexpected end of data"
  | outsideRange => "ordinal not in range(128)"
  | truncatedUnit => "truncated data"
  | outsideUnicode => "codepoint not in range(0x110000)"

private def spanText (position extent : Nat) : String :=
  toString position ++ "-" ++ toString (position + extent - 1)

def DecodingFault.message (f : DecodingFault) : String :=
  "'" ++ f.encoding ++ "' codec can't decode " ++
    (if f.extent = 1 then
      "byte 0x" ++ String.ofList (hex 2 f.octet.toNat) ++ " in position " ++ toString f.position
    else "bytes in position " ++ spanText f.position f.extent) ++
    ": " ++ f.flaw.text

/-- What an encoding says of the characters that it lacks. -/
def Charset.lackText : Charset → String
  | utf8 => "surrogates not allowed"
  | charset => "ordinal not in range(" ++ toString charset.limit ++ ")"

def EncodingFault.message (f : EncodingFault) : String :=
  "'" ++ f.charset.name ++ "' codec can't encode " ++
    (if f.extent = 1 then
      "character '" ++ String.ofList (numericEscape f.code) ++ "' in position " ++
        toString f.position
    else "characters in position " ++ spanText f.position f.extent) ++
    ": " ++ f.charset.lackText

/-! ## UTF-8 -/

namespace Utf8

/-- One character as one to four octets. -/
def encodeChar (c : Char) : Octets :=
  let n := c.toNat
  if n < 0x80 then [n.toUInt8]
  else if n < 0x800 then [(0xC0 + n / 64).toUInt8, (0x80 + n % 64).toUInt8]
  else if n < 0x10000 then
    [(0xE0 + n / 4096).toUInt8, (0x80 + n / 64 % 64).toUInt8, (0x80 + n % 64).toUInt8]
  else
    [(0xF0 + n / 262144).toUInt8, (0x80 + n / 4096 % 64).toUInt8, (0x80 + n / 64 % 64).toUInt8,
      (0x80 + n % 64).toUInt8]

def encode (s : List Char) : Octets :=
  s.flatMap encodeChar

def isContinuation (b : UInt8) : Bool :=
  0x80 ≤ b && b < 0xC0

/-- What an octet announces as the first of a character. -/
inductive Lead where
  | single (n : Nat)
  /-- `count` further octets, the first of them within `low` and `high`. -/
  | multi (bits count : Nat) (low high : UInt8)
  | none
deriving DecidableEq, Repr

def lead (b : UInt8) : Lead :=
  if b < 0x80 then .single b.toNat
  else if b < 0xC2 then .none
  else if b < 0xE0 then .multi (b.toNat - 0xC0) 1 0x80 0xBF
  else if b < 0xF0 then
    .multi (b.toNat - 0xE0) 2 (if b = 0xE0 then 0xA0 else 0x80) (if b = 0xED then 0x9F else 0xBF)
  else if b < 0xF5 then
    .multi (b.toNat - 0xF0) 3 (if b = 0xF0 then 0x90 else 0x80) (if b = 0xF4 then 0x8F else 0xBF)
  else .none

/-- The octets after the second one of a character: `count` continuations. `seen` is the number of
octets of the character read so far, `bits` the code read so far. -/
def continuations : (count seen bits : Nat) → Octets → Except (Nat × DecodingFlaw) (Nat × Octets)
  | 0, _, bits, r => .ok (bits, r)
  | _ + 1, seen, _, [] => .error (seen, .truncated)
  | count + 1, seen, bits, b :: r =>
    if isContinuation b then continuations count (seen + 1) (bits * 64 + (b.toNat - 0x80)) r
    else .error (seen, .brokenSequence)

/-- The first character of the input and the octets after it, or the extent and the kind of the
fault in front. -/
def step (b : UInt8) (r : Octets) : Except (Nat × DecodingFlaw) (Char × Octets) :=
  match lead b with
  | .single n => .ok (Char.ofNat n, r)
  | .none => .error (1, .strayOctet)
  | .multi bits count low high =>
    match r with
    | [] => .error (1, .truncated)
    | b₂ :: r₂ =>
      if low ≤ b₂ && b₂ ≤ high then
        (continuations (count - 1) 2 (bits * 64 + (b₂.toNat - 0x80)) r₂).map
          fun (code, rest) => (Char.ofNat code, rest)
      else .error (1, .brokenSequence)

/-- Reads characters one after another; `fuel` is at least the number of octets. -/
def decodeFrom : (fuel position : Nat) → Octets → Except DecodingFault (List Char)
  | _, _, [] => .ok []
  | 0, _, _ :: _ => .ok []
  | fuel + 1, position, b :: r =>
    match step b r with
    | .error (extent, flaw) => .error ⟨Charset.utf8.name, position, extent, b, flaw⟩
    | .ok (c, rest) =>
      (decodeFrom fuel (position + ((r.length + 1) - rest.length)) rest).map (c :: ·)

def decode (s : Octets) : Except DecodingFault (List Char) :=
  decodeFrom s.length 0 s

/-- The characters of any octets, and between them the octets that belong to none, in the runs that
a fault covers. -/
def runsFrom : (fuel : Nat) → Octets → List (Char ⊕ Octets)
  | _, [] => []
  | 0, _ :: _ => []
  | fuel + 1, b :: r =>
    match step b r with
    | .error (extent, _) => .inr ((b :: r).take extent) :: runsFrom fuel ((b :: r).drop extent)
    | .ok (c, rest) => .inl c :: runsFrom fuel rest

def runs (s : Octets) : List (Char ⊕ Octets) :=
  runsFrom s.length s

end Utf8

/-! ## One octet to a character -/

namespace OneOctet

def decodeFrom (charset : Charset) : Nat → Octets → Except DecodingFault (List Char)
  | _, [] => .ok []
  | position, b :: r =>
    if b.toNat < charset.limit then
      (decodeFrom charset (position + 1) r).map (Char.ofNat b.toNat :: ·)
    else .error ⟨charset.name, position, 1, b, .outsideRange⟩

def encodeFrom (charset : Charset) : Nat → List Char → Except EncodingFault Octets
  | _, [] => .ok []
  | position, c :: r =>
    if c.toNat < charset.limit then
      (encodeFrom charset (position + 1) r).map (c.toNat.toUInt8 :: ·)
    else
      .error ⟨charset, position, 1 + (r.takeWhile (charset.limit ≤ ·.toNat)).length, c.toNat⟩

end OneOctet

/-! ## The two directions -/

namespace Charset

def decode (charset : Charset) (s : Octets) : Except DecodingFault String :=
  (match charset with
    | utf8 => Utf8.decode s
    | _ => OneOctet.decodeFrom charset 0 s).map String.ofList

def encode (charset : Charset) (s : String) : Except EncodingFault Octets :=
  match charset with
  | utf8 => .ok (Utf8.encode s.toList)
  | _ => OneOctet.encodeFrom charset 0 s.toList

end Charset

/-- Any text as UTF-8 octets. -/
def utf8 (s : String) : Octets :=
  Utf8.encode s.toList

/-! ## Broken texts -/

/-- Whether a number stands for half of a two-unit character. -/
def isSurrogate (n : Nat) : Bool :=
  0xD800 ≤ n && n < 0xE000

/-- A text given by numbers, at least one of which is half of a two-unit character. -/
structure Broken where
  codes : List Nat
  bounded : codes.all (· < 0x110000) = true
  broken : codes.any isSurrogate = true
deriving DecidableEq, Repr

/-- Whether an encoding lacks the character of a number. -/
def Charset.lacks : Charset → Nat → Bool
  | utf8, n => isSurrogate n
  | charset, n => charset.limit ≤ n

/-- What keeps a broken text from being encoded: the first run of what the encoding lacks. -/
def Broken.fault (s : Broken) (charset : Charset) : EncodingFault :=
  let (before, rest) := s.codes.span fun n => !charset.lacks n
  let run := rest.takeWhile charset.lacks
  ⟨charset, before.length, run.length, run.headD 0⟩

end Dataspace.Text
