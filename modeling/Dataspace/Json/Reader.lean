import Dataspace.Json.Basic
import Dataspace.Text.Charset

/-!
# Reading JSON

`Json.read` reads a whole text in one of two dialects and says where and why it fails.

A fault is kept as the flaw and the text from the faulty place on, so that a place in the text needs
no counting while reading; `Fault.locate` counts once.

Numbers may be `NaN`, `Infinity` and `-Infinity`. Of a repeated name the last value counts.
-/

namespace Dataspace.Json

/-! ## Faults -/

inductive Flaw where
  | value
  | name
  | colon
  | comma
  | extra
  | controlCharacter
  | unterminated
  | escape
  | unicodeEscape
  /-- A byte order mark stands before the text. -/
  | mark
  /-- Half of a character that takes two units. -/
  | loneUnit
  /-- A number with more digits than the dialect reads. -/
  | digits (count : Nat)
  /-- A container stands inside more others than the dialect reads. -/
  | depth
deriving DecidableEq, Repr

structure Fault where
  flaw : Flaw
  /-- The text from the faulty place on. -/
  rest : List Char
deriving DecidableEq, Repr

/-- A number with too many digits is reported by their count alone. -/
def longNumberText (count : Nat) : String :=
  "Exceeds the limit (4300 digits) for integer string conversion: value has " ++
    toString count ++ " digits; use sys.set_int_max_str_digits() to increase the limit"

def Flaw.text : Flaw → String
  | value => "Expecting value"
  | name => "Expecting property name enclosed in double quotes"
  | colon => "Expecting ':' delimiter"
  | comma => "Expecting ',' delimiter"
  | extra => "Extra data"
  | controlCharacter => "Invalid control character at"
  | unterminated => "Unterminated string starting at"
  | escape => "Invalid \\escape"
  | unicodeEscape => "Invalid \\uXXXX escape"
  | mark => "Unexpected UTF-8 BOM (decode using utf-8-sig)"
  | loneUnit => "Lone surrogate"
  | digits count => longNumberText count
  | depth => "Recursion limit exceeded"

/-- The line, the column and the offset of the place after a prefix of the text. Only line feeds
end lines. -/
def placeAfter (before : List Char) : Nat × Nat × Nat :=
  (1 + before.count '\n', 1 + (before.reverse.takeWhile (· ≠ '\n')).length, before.length)

/-- A fault with its place counted. -/
structure SyntaxError where
  flaw : Flaw
  line : Nat
  column : Nat
  offset : Nat
deriving DecidableEq, Repr

def Fault.locate (text : List Char) (f : Fault) : SyntaxError :=
  let (line, column, offset) := placeAfter (text.take (text.length - f.rest.length))
  ⟨f.flaw, line, column, offset⟩

def SyntaxError.message (e : SyntaxError) : String :=
  e.flaw.text ++ ": line " ++ toString e.line ++ " column " ++ toString e.column ++
    " (char " ++ toString e.offset ++ ")"

/-! ## Dialects -/

structure Dialect where
  /-- The number of containers around a value. -/
  depth : Option Nat
  /-- Whether a container that holds nothing is held to this as well. -/
  limitsEmpty : Bool
  /-- The number of digits of a whole number. -/
  digits : Option Nat
  /-- Whether the limit on digits also holds of the whole part of a fraction. -/
  limitsFractions : Bool
  /-- Whether half of a two-unit character may be escaped alone; it stands for no character and
  is read as U+FFFD. -/
  loneUnits : Bool

namespace Dialect

/-- The dialect of message headers. Reading takes a place on the stack for each container, and this
is how many places there are if the caller takes none to speak of. -/
def header : Dialect := ⟨some 994, true, some 4300, false, true⟩

/-- The dialect of contract documents. -/
def document : Dialect := ⟨some 200, false, some 4300, true, false⟩

/-- Everything that is JSON. -/
def unlimited : Dialect := ⟨none, false, none, false, true⟩

end Dialect

/-! ## Tokens -/

def isBlank (c : Char) : Bool :=
  c = ' ' || c = '\t' || c = '\n' || c = '\r'

def skipBlanks (s : List Char) : List Char :=
  s.dropWhile isBlank

def isDigit (c : Char) : Bool :=
  48 ≤ c.toNat && c.toNat ≤ 57

/-- The value of a run of digits. -/
def digitsValue (ds : List Char) : Nat :=
  ds.foldl (fun n c => n * 10 + (c.toNat - 48)) 0

/-- The unit that four hexadecimal digits name. -/
def hexUnit? (a b c d : Char) : Option Nat := do
  let a ← Text.hexValue? a
  let b ← Text.hexValue? b
  let c ← Text.hexValue? c
  let d ← Text.hexValue? d
  return ((a * 16 + b) * 16 + c) * 16 + d

def isHighUnit (n : Nat) : Bool := 0xD800 ≤ n && n < 0xDC00

def isLowUnit (n : Nat) : Bool := 0xDC00 ≤ n && n < 0xE000

/-- The character that a letter after a backslash stands for. -/
def simpleEscape? (c : Char) : Option Char :=
  match c with
  | '"' => some '"'
  | '\\' => some '\\'
  | '/' => some '/'
  | 'b' => some '\x08'
  | 'f' => some '\x0c'
  | 'n' => some '\n'
  | 'r' => some '\r'
  | 't' => some '\t'
  | _ => none

/-- A unit that is half of a character: as the dialect has it. -/
def loneUnit (d : Dialect) (faulty rest : List Char) : Except Fault (Char × List Char) :=
  if d.loneUnits then .ok ('\uFFFD', rest) else .error ⟨.loneUnit, faulty⟩

/-- The second half of a two-unit character, after the first half `n`. A place that cannot hold a
second half leaves the first one alone. -/
def secondUnit (d : Dialect) (n : Nat) (faulty s : List Char) : Except Fault (Char × List Char) :=
  match s with
  | '\\' :: 'u' :: a :: b :: c :: e :: r =>
    if r.isEmpty then loneUnit d faulty s
    else
      match hexUnit? a b c e with
      | none => .error ⟨.unicodeEscape, 'u' :: a :: b :: c :: e :: r⟩
      | some k =>
        if isLowUnit k then
          .ok (Char.ofNat (0x10000 + (n - 0xD800) * 0x400 + (k - 0xDC00)), r)
        else loneUnit d faulty s
  | _ => loneUnit d faulty s

/-- The character of an escape by number. `s` is the text from the letter after the backslash
on, and the four digits must not be the last of the text. -/
def numberedEscape (d : Dialect) (s : List Char) : Except Fault (Char × List Char) :=
  match s with
  | _ :: a :: b :: c :: e :: r =>
    match if r.isEmpty then none else hexUnit? a b c e with
    | none => .error ⟨.unicodeEscape, s⟩
    | some n =>
      if isHighUnit n then secondUnit d n s r
      else if isLowUnit n then loneUnit d s r
      else .ok (Char.ofNat n, r)
  | _ => .error ⟨.unicodeEscape, s⟩

/-- The characters of a quoted text up to its closing quote, and the text after that. `start` is the
text from the opening quote on; `fuel` exceeds the number of characters. -/
def characters (d : Dialect) (start : List Char) :
    (fuel : Nat) → List Char → Except Fault (List Char × List Char)
  | 0, _ => .error ⟨.unterminated, start⟩
  | _ + 1, [] => .error ⟨.unterminated, start⟩
  | fuel + 1, c :: r =>
    if c = '"' then .ok ([], r)
    else if c = '\\' then
      match r with
      | [] => .error ⟨.unterminated, start⟩
      | e :: r' =>
        if e = 'u' then
          match numberedEscape d r with
          | .error f => .error f
          | .ok (x, rest) => (characters d start fuel rest).map fun (cs, after) => (x :: cs, after)
        else
          match simpleEscape? e with
          | none => .error ⟨.escape, c :: r⟩
          | some x => (characters d start fuel r').map fun (cs, after) => (x :: cs, after)
    else if c.toNat < 0x20 then .error ⟨.controlCharacter, c :: r⟩
    else (characters d start fuel r).map fun (cs, after) => (c :: cs, after)

/-! ## Numbers -/

/-- The digits after a point, if at least one follows it. -/
def fraction : List Char → List Char × List Char
  | '.' :: r =>
    match r.takeWhile isDigit with
    | [] => ([], '.' :: r)
    | ds => (ds, r.dropWhile isDigit)
  | s => ([], s)

/-- The exponent after its mark, if at least one digit follows. -/
def exponent : List Char → Option Int × List Char
  | c :: r =>
    if c = 'e' || c = 'E' then
      let (negative, ds) : Bool × List Char :=
        match r with
        | '-' :: r' => (true, r')
        | '+' :: r' => (false, r')
        | _ => (false, r)
      match ds.takeWhile isDigit with
      | [] => (none, c :: r)
      | e =>
        let n : Int := digitsValue e
        (some (if negative then -n else n), ds.dropWhile isDigit)
    else (none, c :: r)
  | [] => (none, [])

/-- A whole part without a leading zero, or a zero. -/
def wholePart : List Char → Option (List Char × List Char)
  | '0' :: r => some (['0'], r)
  | s =>
    match s.takeWhile isDigit with
    | [] => none
    | ds => some (ds, s.dropWhile isDigit)

def exceeds (limit : Option Nat) (count : Nat) : Bool :=
  match limit with
  | some n => n < count
  | none => false

/-- An unsigned number. `start` is the text from the number's sign on. -/
def unsigned (d : Dialect) (negative : Bool) (start s : List Char) :
    Except Fault (Json × List Char) :=
  match wholePart s with
  | none => .error ⟨.value, start⟩
  | some (whole, r) =>
    let (places, r) := fraction r
    let (power, r) := exponent r
    let isWhole := places.isEmpty && power.isNone
    if exceeds d.digits whole.length && (isWhole || d.limitsFractions) then
      .error ⟨.digits whole.length, start⟩
    else if isWhole then
      let n : Int := digitsValue whole
      .ok (.int (if negative then -n else n), r)
    else
      .ok (.float (Binary64.ofDecimal negative (digitsValue (whole ++ places))
        (power.getD 0 - places.length)), r)

/-- The text after a word, if it begins with it. -/
def afterWord (word : String) (s : List Char) : Option (List Char) :=
  if word.toList.isPrefixOf s then some (s.drop word.length) else none

/-- The words that are values. -/
def words : List (String × Json) :=
  [("null", .null), ("true", .bool true), ("false", .bool false), ("NaN", .float .nan),
    ("Infinity", .float (.infinite false)), ("-Infinity", .float (.infinite true))]

/-- A value that is not quoted and has no parts. -/
def atom (d : Dialect) (s : List Char) : Except Fault (Json × List Char) :=
  match words.findSome? fun (word, v) => (afterWord word s).map fun r => (v, r) with
  | some found => .ok found
  | none =>
    match s with
    | '-' :: r => unsigned d true s r
    | _ => unsigned d false s s

/-! ## Values -/

/-- One container deeper, unless the dialect ends here. -/
def deeper : Option Nat → Option (Option Nat)
  | none => some none
  | some 0 => none
  | some (n + 1) => some (some n)

mutual

def value (d : Dialect) : (fuel : Nat) → (depth : Option Nat) → List Char →
    Except Fault (Json × List Char)
  | 0, _, s => .error ⟨.value, s⟩
  | fuel + 1, depth, s =>
    match s with
    | '"' :: r => (characters d s fuel r).map fun (cs, rest) => (.str (String.ofList cs), rest)
    | '[' :: r =>
      match skipBlanks r with
      | ']' :: rest =>
        if d.limitsEmpty && (deeper depth).isNone then .error ⟨.depth, s⟩ else .ok (.arr [], rest)
      | r' =>
        match deeper depth with
        | none => .error ⟨.depth, s⟩
        | some depth' => (items d fuel depth' r').map fun (vs, rest) => (.arr vs, rest)
    | '{' :: r =>
      match skipBlanks r with
      | '}' :: rest =>
        if d.limitsEmpty && (deeper depth).isNone then .error ⟨.depth, s⟩ else .ok (.obj [], rest)
      | r' =>
        match deeper depth with
        | none => .error ⟨.depth, s⟩
        | some depth' =>
          (members d fuel depth' r').map fun (ms, rest) => (.obj (Entries.merge ms), rest)
    | _ => atom d s

/-- The items of an array up to its closing bracket. -/
def items (d : Dialect) : (fuel : Nat) → (depth : Option Nat) → List Char →
    Except Fault (List Json × List Char)
  | 0, _, s => .error ⟨.value, s⟩
  | fuel + 1, depth, s =>
    match value d fuel depth s with
    | .error f => .error f
    | .ok (v, r) =>
      match skipBlanks r with
      | ']' :: rest => .ok ([v], rest)
      | ',' :: rest =>
        (items d fuel depth (skipBlanks rest)).map fun (vs, after) => (v :: vs, after)
      | r' => .error ⟨.comma, r'⟩

/-- The members of an object up to its closing brace. -/
def members (d : Dialect) : (fuel : Nat) → (depth : Option Nat) → List Char →
    Except Fault (List (String × Json) × List Char)
  | 0, _, s => .error ⟨.value, s⟩
  | fuel + 1, depth, s =>
    match s with
    | '"' :: r =>
      match characters d s fuel r with
      | .error f => .error f
      | .ok (name, r) =>
        match skipBlanks r with
        | ':' :: r =>
          match value d fuel depth (skipBlanks r) with
          | .error f => .error f
          | .ok (v, r) =>
            match skipBlanks r with
            | '}' :: rest => .ok ([(String.ofList name, v)], rest)
            | ',' :: rest =>
              (members d fuel depth (skipBlanks rest)).map fun (ms, after) =>
                ((String.ofList name, v) :: ms, after)
            | r' => .error ⟨.comma, r'⟩
        | r' => .error ⟨.colon, r'⟩
    | _ => .error ⟨.name, s⟩

end

/-- Enough for every value of the text: each step of the reader passes a character, but the one
into a container. -/
def fuelFor (s : List Char) : Nat :=
  2 * s.length + 2

/-- Reads a whole text. -/
def read (d : Dialect) (s : List Char) : Except Fault Json :=
  match value d (fuelFor s) d.depth (skipBlanks s) with
  | .error f => .error f
  | .ok (v, r) =>
    match skipBlanks r with
    | [] => .ok v
    | r' => .error ⟨.extra, r'⟩

end Dataspace.Json
