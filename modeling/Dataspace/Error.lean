import Dataspace.Json.Reader
import Dataspace.Message.Profile
import Dataspace.Mime.Parameter
import Dataspace.Report

/-!
# Failures

An `Error` is a cause. `Error.message` words it, `Error.cause` gives the failure that it was raised
from, and `Error.family` the kind of failure by which callers tell a decision of the peer from a
local problem.

Collaborators may fail with errors of their own; `Error.reported` carries those.
-/

namespace Dataspace

/-- The kinds of failure that callers tell apart. -/
inductive Family where
  | connector
  | descriptor
  | transport
  | response
  | unexpectedKind
  | malformedAgreement
  | mismatch
  | notFound
  | persistence
  | configuration
  | validation
  | decoding
  | encoding
  | syntaxError
  | lookup
  | key
  | value
  | attribute
  | index
  | recursion
  /-- A failure of the system, such as a full disk. -/
  | system (name : String)
  /-- Any other failure of a collaborator. -/
  | foreign (name : String)
deriving DecidableEq, Repr

/-- Why a reply cannot be read, or did not come. -/
inductive TransportFault where
  | notMultipart (contentType : Option String)
  | malformed
  | noHeaderPart
  | headerSyntax (e : Json.SyntaxError)
  | headerCharacters (e : Text.DecodingFault)
  | headerNotObject
  | timeout (detail : String)
  | network (detail : String)
  | status (code : Nat)
deriving DecidableEq, Repr

/-- Why a reply holds no agreement. -/
inductive AgreementFlaw where
  | noResponse
  | notText (e : Text.DecodingFault)
  | empty
  | invalid (report : Report)
  | notValidated
deriving DecidableEq, Repr

/-- A reply of another kind than the expected one. -/
structure UnexpectedReply where
  expected : String
  actual : Option String
  response : Option Response
  body : Option Received
  reason : Option String
deriving DecidableEq

inductive Error where
  | descriptor (flaw : DescriptorFlaw)
  | transport (fault : TransportFault) (recipient : Option String)
  /-- The peer answered with an error status and an unreadable message. -/
  | unreadableReply (status : Nat) (fault : TransportFault) (recipient : String)
  /-- The transport failed in a way of its own. -/
  | sending (kind : MessageKind) (recipient : String) (cause : Error)
  | unexpectedReply (reply : UnexpectedReply)
  | agreement (flaw : AgreementFlaw)
  | mismatch (texts : List String)
  | unknownAgreement (id : String)
  | noPayload (subject : String)
  /-- A reply could not be stored. -/
  | unsaved (message : String) (cause : Error)
  | emptyConnectorId
  | invalid (report : Report)
  | characters (fault : Text.DecodingFault)
  | octets (fault : Text.EncodingFault)
  | unknownCharset (name : String)
  | headerSyntax (e : Json.SyntaxError)
  | longNumber (digits : Nat)
  /-- Too many containers stand within one another; the innermost one is an object, or an array. -/
  | nested (isObject : Bool)
  /-- A field of a message in parts cannot be understood. -/
  | headerField (fault : Mime.HeaderFault)
  | unknownKind (tag : String)
  | replyOnlyKind (kind : MessageKind)
  | unknownPolicy (name : String)
  /-- There is no agreement that could be confirmed. -/
  | nothingToConfirm
  | reported (family : Family) (message : String) (recipient : Option String)
deriving DecidableEq

/-! ## Wording -/

/-- The text, or a substitute for one that is absent or empty. -/
def orElseText (s : Option String) (substitute : String) : String :=
  match s with
  | some t => if t.isEmpty then substitute else t
  | none => substitute

def TransportFault.message : TransportFault → String
  | notMultipart contentType =>
    "Expected a multipart reply, got " ++ orElseText contentType "no content type"
  | malformed => "Malformed multipart reply"
  | noHeaderPart => "Multipart reply has no header part"
  | headerSyntax e => "Reply header is not valid JSON: " ++ e.message
  | headerCharacters e => "Reply header is not valid JSON: " ++ e.message
  | headerNotObject => "Reply header is not a JSON object"
  | timeout detail => "Timeout: " ++ detail
  | network detail => "Network error: " ++ detail
  | status code => "Peer answered HTTP " ++ Decimal.ofNat code

def AgreementFlaw.message : AgreementFlaw → String
  | noResponse => "No contract response to extract an agreement from"
  | notText e => "Agreement payload is not text: " ++ e.message
  | empty => "Contract agreement body is empty"
  | invalid report => "Invalid contract agreement: " ++ report.headline
  | notValidated => "No validated agreement to publish"

def UnexpectedReply.message (r : UnexpectedReply) : String :=
  "Expected " ++ r.expected ++ ", got " ++ orElseText r.actual "no message type" ++
    (match r.reason with
      | some reason => if reason.isEmpty then "" else " (reason: " ++ reason ++ ")"
      | none => "")

def Mime.HeaderFault.message : HeaderFault → String
  | cutShort => "string index out of range"
  | noValue => "list index out of range"
  | longNumber digits => Json.longNumberText digits

namespace Error

def message : Error → String
  | descriptor flaw => flaw.message
  | transport fault _ => fault.message
  | unreadableReply status fault _ =>
    "Peer answered HTTP " ++ Decimal.ofNat status ++ ": " ++ fault.message
  | sending kind _ cause => "Sending " ++ kind.tag ++ " failed: " ++ cause.message
  | unexpectedReply reply => reply.message
  | agreement flaw => flaw.message
  | mismatch texts => "Contract agreement does not match request: " ++ "; ".intercalate texts
  | unknownAgreement id => "Agreement " ++ id ++ " is unknown"
  | noPayload subject => "Response for " ++ subject ++ " carries no payload"
  | unsaved message _ => message
  | emptyConnectorId => "connector_id must not be empty"
  | invalid report => report.headline
  | characters fault => fault.message
  | octets fault => fault.message
  | unknownCharset name => "unknown encoding: " ++ name
  | headerSyntax e => e.message
  | longNumber digits => Json.longNumberText digits
  | nested isObject =>
    "maximum recursion depth exceeded while decoding a JSON " ++
      (if isObject then "object" else "array") ++ " from a unicode string"
  | headerField fault => fault.message
  | unknownKind tag => Text.quoted tag ++ " is not a valid MessageKind"
  | replyOnlyKind kind => "<MessageKind." ++ kind.label ++ ": " ++ Text.quoted kind.tag ++ ">"
  | unknownPolicy name => Text.quoted name ++ " is not a valid ArtifactFailurePolicy"
  | nothingToConfirm => "'NoneType' object has no attribute 'id'"
  | reported _ message _ => message

def family : Error → Family
  | descriptor _ => .descriptor
  | transport _ _ => .transport
  | unreadableReply _ _ _ => .transport
  | sending _ _ _ => .transport
  | unexpectedReply _ => .unexpectedKind
  | agreement _ => .malformedAgreement
  | mismatch _ => .mismatch
  | unknownAgreement _ => .notFound
  | noPayload _ => .response
  | unsaved _ _ => .persistence
  | emptyConnectorId => .configuration
  | invalid _ => .validation
  | characters _ => .decoding
  | octets _ => .encoding
  | unknownCharset _ => .lookup
  | headerSyntax _ => .syntaxError
  | longNumber _ => .value
  | nested _ => .recursion
  | headerField (.longNumber _) => .value
  | headerField _ => .index
  | unknownKind _ => .value
  | replyOnlyKind _ => .key
  | unknownPolicy _ => .value
  | nothingToConfirm => .attribute
  | reported family _ _ => family

/-- The failure that this one was raised from. -/
def cause : Error → Option Error
  | transport (.headerSyntax e) _ => some (headerSyntax e)
  | transport (.headerCharacters e) _ => some (characters e)
  | unreadableReply _ fault _ => some (transport fault none)
  | sending _ _ cause => some cause
  | agreement (.notText e) => some (characters e)
  | agreement (.invalid report) => some (invalid report)
  | unsaved _ cause => some cause
  | _ => none

/-- The peer that a transport failure is about. -/
def recipient : Error → Option String
  | transport _ recipient => recipient
  | unreadableReply _ _ recipient => some recipient
  | sending _ recipient _ => some recipient
  | reported _ _ recipient => recipient
  | _ => none

/-- Whether a failure to save is the store's own: of the system, of something unknown to it, or of
a reply that it cannot use. -/
def isStoreFailure (e : Error) : Bool :=
  match e.family with
  | .system _ => true
  | .notFound => true
  | .response => true
  | _ => false

end Error

end Dataspace
