import Dataspace.Fields
import Dataspace.Message.Kind
import Dataspace.Text.Blank
import Dataspace.Text.Charset
import Dataspace.Text.Quoted
import Dataspace.Time.Writer

/-!
# Messages

A `Descriptor` is what a caller wants to be said, a `Message` is what is said, and `Message.header`
is the form in which it travels: named fields in a fixed order. A `Payload` goes along with it. A
`Response` is what comes back; what it holds is `Received`, which need not be Unicode.
-/

namespace Dataspace

/-! ## Identifiers -/

/-- A universally unique identifier: a number of 128 bits. -/
structure Uuid where
  bits : BitVec 128
deriving DecidableEq

namespace Uuid

/-- The thirty-two hexadecimal digits. -/
def digits (u : Uuid) : List Char :=
  Text.hex 32 u.bits.toNat

/-- The digits in five groups. -/
def text (u : Uuid) : List Char :=
  let ds := u.digits
  ds.take 8 ++ '-' :: (ds.drop 8).take 4 ++ '-' :: (ds.drop 12).take 4 ++
    '-' :: (ds.drop 16).take 4 ++ '-' :: ds.drop 20

/-- The first twelve digits after a prefix. -/
def localId (stem : String) (u : Uuid) : String :=
  (if stem.isEmpty then "" else stem ++ "_") ++ String.ofList (u.digits.take 12)

/-- The identifier of a message of the given kind. -/
def messageId (kind : MessageKind) (u : Uuid) : String :=
  "https://w3id.org/idsa/autogen/" ++ kind.localName ++ "/" ++ String.ofList u.text

end Uuid

/-! ## Who speaks -/

/-- What a connector says of itself at one moment. -/
structure Identity where
  connectorId : String
  modelVersion : String
  token : String
deriving DecidableEq, Repr

/-- An identity for the eyes of a reader: the token does not show. -/
def Identity.display (i : Identity) : String :=
  "ConnectorIdentity(connector_id=" ++ Text.quoted i.connectorId ++
    ", outbound_model_version=" ++ Text.quoted i.modelVersion ++ ", security_token=***)"

/-! ## What is said -/

structure Descriptor where
  kind : MessageKind
  recipient : String
  /-- The element, artifact or contract that the message is about. -/
  subject : Option String
  /-- The agreement that entitles to an artifact. -/
  transferContract : Option String
  properties : Fields String
deriving DecidableEq

structure Message where
  kind : MessageKind
  id : String
  issued : Timestamp
  modelVersion : String
  issuerConnector : String
  senderAgent : String
  securityToken : String
  recipients : List String
  requestedElement : Option String
  requestedArtifact : Option String
  transferContract : Option String
  properties : Fields String
deriving DecidableEq

/-- Header fields. -/
abbrev Header := Fields String

namespace Message

/-- The fields that every message has. -/
def commonFields (m : Message) : List (String × String) :=
  [("@type", m.kind.tag), ("@id", m.id), ("ids:issued", m.issued.headerText),
    ("ids:modelVersion", m.modelVersion), ("ids:issuerConnector", m.issuerConnector),
    ("ids:senderAgent", m.senderAgent), ("ids:securityToken", m.securityToken),
    ("ids:recipientConnector", ",".intercalate m.recipients)]

/-- The header: the common fields, those of the subject, and the properties, which take the place
of a field of the same name. -/
def header (m : Message) : Header :=
  ((((Fields.ofPairs m.commonFields).putSome "ids:requestedElement" m.requestedElement).putSome
    "ids:requestedArtifact" m.requestedArtifact).putSome
    "ids:transferContract" m.transferContract).putAll m.properties.entries

end Message

/-- What is sent along with a header: a Unicode text or octets. -/
inductive Payload where
  | text (s : String)
  | octets (s : Text.Octets)
deriving DecidableEq, Repr

/-- The octets that travel: text in UTF-8. -/
def Payload.wire : Payload → Text.Octets
  | text s => Text.utf8 s
  | octets s => s

/-! ## What comes back -/

/-- What is received along with a header. A text may hold halves of characters. -/
inductive Received where
  | text (s : String)
  | octets (s : Text.Octets)
  | broken (s : Text.Broken)
deriving DecidableEq, Repr

structure Response where
  header : Header
  payload : Received
deriving DecidableEq

namespace Response

def kind (r : Response) : Option String :=
  r.header.get? "@type"

def rejectionReason (r : Response) : Option String :=
  r.header.get? "ids:rejectionReason"

end Response

namespace Received

/-- The payload as a text, broken or not; only octets need decoding. -/
def toText (charset : Text.Charset) : Received → Except Text.DecodingFault Received
  | text s => .ok (text s)
  | octets s => (charset.decode s).map text
  | broken s => .ok (broken s)

/-- The payload as octets: text in UTF-8, which a broken text has no place in. -/
def wire : Received → Except Text.EncodingFault Text.Octets
  | text s => .ok (Text.utf8 s)
  | octets s => .ok s
  | broken s => .error (s.fault .utf8)

/-- Whether nothing but blanks stands there. Half of a character is no blank. -/
def isBlank : Received → Bool
  | text s => s.toList.all Text.isBlank
  | octets s => s.all Text.isBlankOctet
  | broken _ => false

end Received

end Dataspace
