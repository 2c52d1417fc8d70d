import Dataspace.Error
import Dataspace.Json.Writer
import Dataspace.Mime.Entity
import Dataspace.Text.Wide

/-!
# Messages in parts

A message travels as two parts of a form: `header`, the header fields as a JSON object, and
`payload`. `files` and `frame` make that form, `decode` reads a reply in it.

A reply may order its parts as it likes and have more of them; of parts with one name the last
counts, and a payload that is missing is empty. Header values that are no texts are kept as JSON.
-/

namespace Dataspace.Multipart

open Text (Octets)

/-! ## Sending -/

/-- One part of a form. -/
structure FilePart where
  name : String
  content : Octets
  contentType : String
deriving DecidableEq, Repr

/-- The parts of a message. -/
def files (header : List (String × Json)) (payload : Payload) : List FilePart :=
  [⟨"header", Text.utf8 ((Json.obj header).write .plain), "application/ld+json"⟩,
    ⟨"payload", payload.wire, "application/octet-stream"⟩]

def filesOf (header : Header) (payload : Payload) : List FilePart :=
  files (header.entries.map fun (name, value) => (name, .str value)) payload

/-- One part behind its delimiter. -/
def framePart (boundary : String) (part : FilePart) : Octets :=
  Text.utf8 ("--" ++ boundary ++ "\r\nContent-Disposition: form-data; name=\"" ++ part.name ++
    "\"\r\nContent-Type: " ++ part.contentType ++ "\r\n\r\n") ++ part.content ++ Text.utf8 "\r\n"

def frame (boundary : String) (parts : List FilePart) : Octets :=
  parts.flatMap (framePart boundary) ++ Text.utf8 ("--" ++ boundary ++ "--\r\n")

def formType (boundary : String) : String :=
  "multipart/form-data; boundary=" ++ boundary

/-! ## Receiving -/

/-- Whether a text occurs in another. -/
def occurs (part : List Char) : List Char → Bool
  | [] => part.isEmpty
  | c :: r => part.isPrefixOf (c :: r) || occurs part r

def isMultipart (contentType : Option String) : Bool :=
  contentType.any fun t => occurs "multipart/".toList t.toList

/-- The content of the parts that have a name; of one name the last counts. -/
def partsByName (entities : List Mime.Entity) : Except Mime.HeaderFault (Fields Octets) :=
  entities.foldlM (fun parts e => do
    match ← e.name? with
    | some (c :: cs) => return parts.put (String.ofList (c :: cs)) e.payload
    | _ => return parts) .empty

def readParts (contentType : String) (body : Octets) : Except Error (Fields Octets) :=
  match Text.Charset.encode .ascii ("Content-Type: " ++ contentType ++ "\r\n\r\n") with
  | .error fault => .error (.octets fault)
  | .ok start =>
    match Mime.Entity.ofOctets (start ++ body) with
    | .error fault => .error (.headerField fault)
    | .ok e =>
      match e.content with
      | .text _ => .error (.transport .malformed none)
      | .parts entities => (partsByName entities).mapError .headerField

/-- The JSON value of a header part. -/
def readHeaderValue (s : Octets) : Except Error Json :=
  match Text.decodeJson s with
  | .error fault => .error (.transport (.headerCharacters fault) none)
  | .ok cs =>
    match Json.read .header cs with
    | .error fault =>
      match fault.flaw with
      | .digits count => .error (.longNumber count)
      | .depth => .error (.nested (fault.rest.head? = some '{'))
      | _ => .error (.transport (.headerSyntax (fault.locate cs)) none)
    | .ok v => .ok v

def fieldText : Json → String
  | .str s => s
  | v => v.write .plain

def readHeader (s : Octets) : Except Error Header :=
  match readHeaderValue s with
  | .error e => .error e
  | .ok (.obj members) => .ok (.ofPairs (members.map fun (name, v) => (name, fieldText v)))
  | .ok _ => .error (.transport .headerNotObject none)

def decode (contentType : Option String) (body : Octets) : Except Error Response :=
  match contentType, isMultipart contentType with
  | some t, true => do
    let parts ← readParts t body
    match parts.get? "header" with
    | none => .error (.transport .noHeaderPart none)
    | some s =>
      let header ← readHeader s
      return ⟨header, .octets ((parts.get? "payload").getD [])⟩
  | _, _ => .error (.transport (.notMultipart contentType) none)

end Dataspace.Multipart
