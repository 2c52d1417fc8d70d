import Dataspace.Mime.Field

/-!
# Entities

An entity is a header and a body. The body of a `multipart` entity is a list of entities between
delimiters, that of a `message` entity is one more entity, and every other body is text. A
`multipart` entity that has no boundary, or no delimiter in its body, is text as well.

Of a part between delimiters the last line end belongs to the delimiter.
-/

namespace Dataspace.Mime

open Text (Octets)

mutual

inductive Entity where
  | mk (fields : List Field) (type : MediaType) (content : Content)

inductive Content where
  | text (s : Octets)
  | parts (entities : List Entity)

end

namespace Entity

def fields : Entity → List Field
  | mk fields _ _ => fields

def type : Entity → MediaType
  | mk _ type _ => type

def content : Entity → Content
  | mk _ _ content => content

/-! ## Bodies in parts -/

/-- The groups of lines between delimiters, from a delimiter on. Several delimiters one after
another count as one. `fuel` is the number of lines. -/
def groupsFrom (kind : Octets → Option Line.Delimiter) : (fuel : Nat) → List Octets →
    List (List Octets)
  | 0, _ => []
  | _ + 1, [] => []
  | fuel + 1, line :: r =>
    if kind line = some .final then []
    else
      let (group, rest) := (r.dropWhile fun l => (kind l).isSome).span fun l => (kind l).isNone
      group :: groupsFrom kind fuel rest

/-- The groups of lines of a body in parts, or the text before the first delimiter if that is a
final one or missing. -/
def groups (boundary : List Char) (body : List Octets) : Octets ⊕ List (List Octets) :=
  let kind := Line.delimiter? boundary
  let (preamble, rest) := body.span fun l => (kind l).isNone
  match rest with
  | line :: _ =>
    if kind line = some .between then .inr (groupsFrom kind rest.length rest)
    else .inl preamble.flatten
  | [] => .inl preamble.flatten

/-- Blocks of lines with an empty line after each. `fuel` is the number of lines. -/
def blocks : (fuel : Nat) → List Octets → List (List Octets)
  | 0, _ => [[]]
  | fuel + 1, lines =>
    let (block, rest) := lines.span fun l => !Line.isEmpty l
    match rest with
    | _ :: line :: r => block :: blocks fuel (line :: r)
    | _ => [block]

/-! ## Reading -/

/-- The type of an entity with the given fields. -/
def typeOf (fields : List Field) (default : MediaType) : Except HeaderFault MediaType :=
  match Field.find? fields "content-type" with
  | none => .ok default
  | some value => (Field.mediaTypeShown value).map .ofShown

/-- The boundary between the parts. -/
def boundaryOf (fields : List Field) : Except HeaderFault (Option (List Char)) :=
  match Field.find? fields "content-type" with
  | none => .ok none
  | some value => (Field.mediaTypeShown value).map fun shown =>
    (Shown.parameter? "boundary" shown).map fun b =>
      ((Shown.unquote b).reverse.dropWhile Text.isBlank).reverse

/-- A part without the line end that belongs to the delimiter after it. -/
def withoutEnd : Entity → Entity
  | mk fields type (.text s) =>
    mk fields type (.text (if type.isMultipart then s else Line.withoutEnd s))
  | e => e

/-- The entity that lines make. `default` is its type if it declares none, `fuel` exceeds the depth
of entities within entities. -/
def read : (fuel : Nat) → (default : MediaType) → List Octets → Except HeaderFault Entity
  | 0, default, lines => .ok (mk [] default (.text lines.flatten))
  | fuel + 1, default, lines => do
    let (header, body) := Field.splitHeader lines
    let fields := Field.ofHeader header
    let type ← typeOf fields default
    if type = .deliveryStatus then
      let entities ← (blocks body.length body).mapM (read fuel .plainText)
      return mk fields type (.parts entities)
    else if type.isMessage then
      return mk fields type (.parts [← read fuel .plainText body])
    else if type.isMultipart then
      match ← boundaryOf fields with
      | none => return mk fields type (.text body.flatten)
      | some boundary =>
        match groups boundary body with
        | .inl text => return mk fields type (.text text)
        | .inr groups =>
          let default := if type = .digest then MediaType.message else .plainText
          let entities ← groups.mapM (read fuel default)
          return mk fields type (.parts (entities.map withoutEnd))
    else return mk fields type (.text body.flatten)

/-- The entity that a text makes. -/
def ofOctets (s : Octets) : Except HeaderFault Entity :=
  let lines := Line.ofOctets s
  read (2 * lines.length + 2) .plainText lines

/-! ## What an entity says -/

/-- The name under which a part is sent. -/
def name? (e : Entity) : Except HeaderFault (Option (List Char)) :=
  match Field.find? e.fields "content-disposition" with
  | none => .ok none
  | some value => (Field.dispositionShown value).map (Shown.parameter? "name")

/-- The octets that the body spells; an entity in parts has none of its own. -/
def payload (e : Entity) : Octets :=
  match e.content with
  | .parts _ => []
  | .text s =>
    match Field.find? e.fields "content-transfer-encoding" with
    | none => s
    | some value =>
      transferDecode (String.ofList ((Field.transferEncodingShown value).map Char.toLower)) s

end Entity

end Dataspace.Mime
