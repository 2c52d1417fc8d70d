import Dataspace.Message.Basic

/-!
# Profiles

A profile says what distinguishes one outgoing kind from another: the fields that a descriptor of
the kind must fill, the header field that takes its subject, and the kind of a good reply.
-/

namespace Dataspace

/-- The fields of a descriptor that a profile can require. -/
inductive DescriptorField where
  | kind
  | recipient
  | subject
  | transferContract
  | properties
deriving DecidableEq, Repr

namespace DescriptorField

def all : List DescriptorField := [kind, recipient, subject, transferContract, properties]

def name : DescriptorField → String
  | kind => "kind"
  | recipient => "recipient"
  | subject => "subject_id"
  | transferContract => "transfer_contract"
  | properties => "properties"

def ofName? (s : String) : Option DescriptorField :=
  all.find? (·.name == s)

/-- Whether a descriptor fills the field: an empty text fills none. -/
def filledIn (d : Descriptor) : DescriptorField → Bool
  | kind => true
  | recipient => !d.recipient.isEmpty
  | subject => d.subject.any (!·.isEmpty)
  | transferContract => d.transferContract.any (!·.isEmpty)
  | properties => !d.properties.entries.isEmpty

end DescriptorField

/-- The fields of a message that can take the subject. -/
inductive SubjectField where
  | requestedElement
  | requestedArtifact
  | transferContract
deriving DecidableEq, Repr

namespace SubjectField

def all : List SubjectField := [requestedElement, requestedArtifact, transferContract]

def name : SubjectField → String
  | requestedElement => "requested_element"
  | requestedArtifact => "requested_artifact"
  | transferContract => "transfer_contract"

def ofName? (s : String) : Option SubjectField :=
  all.find? (·.name == s)

end SubjectField

structure Profile where
  kind : MessageKind
  expected : MessageKind
  required : List DescriptorField
  subject : Option SubjectField
  defaults : Fields String
deriving DecidableEq

namespace Profile

def descriptionRequest : Profile :=
  ⟨.descriptionRequest, .descriptionResponse, [.recipient, .subject], some .requestedElement,
    .empty⟩

def artifactRequest : Profile :=
  ⟨.artifactRequest, .artifactResponse, [.recipient, .subject], some .requestedArtifact, .empty⟩

def contractRequest : Profile :=
  ⟨.contractRequest, .contractAgreement, [.recipient, .subject], some .requestedElement, .empty⟩

def contractAgreement : Profile :=
  ⟨.contractAgreement, .messageProcessed, [.recipient, .subject], some .transferContract, .empty⟩

def all : List Profile :=
  [descriptionRequest, artifactRequest, contractRequest, contractAgreement]

/-- The profile of a kind; kinds that are only replies have none. -/
def ofKind? (kind : MessageKind) : Option Profile :=
  all.find? (·.kind = kind)

end Profile

/-! ## From descriptor to message -/

inductive DescriptorFlaw where
  | absent
  | kind (given service : MessageKind)
  | missing (service : MessageKind) (fields : List DescriptorField)
deriving DecidableEq, Repr

def DescriptorFlaw.message : DescriptorFlaw → String
  | .absent => "Message descriptor must not be None"
  | .kind given service =>
    "Descriptor kind " ++ given.tag ++ " does not match service kind " ++ service.tag
  | .missing service fields => service.tag ++ " requires " ++ ", ".intercalate (fields.map (·.name))

namespace Profile

/-- The required fields that a descriptor leaves empty. -/
def missing (p : Profile) (d : Descriptor) : List DescriptorField :=
  p.required.filter (!·.filledIn d)

/-- A descriptor that a message of this profile can be built from. -/
def accept (p : Profile) : Option Descriptor → Except DescriptorFlaw Descriptor
  | none => .error .absent
  | some d =>
    if d.kind ≠ p.kind then .error (.kind d.kind p.kind)
    else if p.missing d = [] then .ok d
    else .error (.missing p.kind (p.missing d))

end Profile

/-- What is fixed for all messages of one sender and kind. -/
structure Service where
  profile : Profile
  properties : Fields String

namespace Service

/-- Properties of the profile, of the service and of the descriptor, the later ones counting. -/
def mergedProperties (s : Service) (d : Descriptor) : Fields String :=
  ((Fields.ofPairs s.profile.defaults.entries).putAll s.properties.entries).putAll
    d.properties.entries

/-- A text that is not empty. -/
def filled (s : Option String) : Option String :=
  s.filter (!·.isEmpty)

/-- The subject, if this is the field that takes it. -/
def subjectFor (s : Service) (d : Descriptor) (field : SubjectField) : Option String :=
  if s.profile.subject = some field then filled d.subject else none

/-- The message for a descriptor, said by the given identity at the given time. A subject that goes
where the transfer contract goes takes precedence over it. -/
def message (s : Service) (d : Descriptor) (who : Identity) (u : Uuid) (now : Timestamp) :
    Message :=
  { kind := s.profile.kind
    id := u.messageId s.profile.kind
    issued := now
    modelVersion := who.modelVersion
    issuerConnector := who.connectorId
    senderAgent := who.connectorId
    securityToken := who.token
    recipients := [d.recipient]
    requestedElement := s.subjectFor d .requestedElement
    requestedArtifact := s.subjectFor d .requestedArtifact
    transferContract := (s.subjectFor d .transferContract).or (filled d.transferContract)
    properties := s.mergedProperties d }

/-- The number of levels of a description that are asked for unless configured otherwise. -/
def defaultDepth : Int := 10

/-- Asks for descriptions, `depth` levels deep. -/
def descriptions (depth : Int) : Service :=
  ⟨.descriptionRequest, .ofPairs [("ids:depth", Decimal.ofInt depth)]⟩

def artifacts : Service := ⟨.artifactRequest, .empty⟩

def contractRequests : Service := ⟨.contractRequest, .empty⟩

def contractAgreements : Service := ⟨.contractAgreement, .empty⟩

/-- Whether a reply has the kind that the service expects. -/
def accepts (s : Service) (r : Response) : Bool :=
  r.kind == some s.profile.expected.tag

end Service

/-! ## Descriptors of the usual messages -/

namespace Descriptor

/-- A message about one subject, without more. -/
def about (kind : MessageKind) (recipient subject : String) : Descriptor :=
  ⟨kind, recipient, some subject, none, .empty⟩

def description (recipient element : String) : Descriptor :=
  about .descriptionRequest recipient element

def artifact (recipient artifact : String) (transferContract : Option String) : Descriptor :=
  ⟨.artifactRequest, recipient, some artifact, transferContract, .empty⟩

end Descriptor

end Dataspace
