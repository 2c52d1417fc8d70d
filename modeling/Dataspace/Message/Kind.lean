/-!
# Kinds of messages

Every message declares its kind in the field `@type` of its header.
-/

namespace Dataspace

inductive MessageKind where
  | descriptionRequest
  | descriptionResponse
  | artifactRequest
  | artifactResponse
  | contractRequest
  | contractAgreement
  | messageProcessed
  | rejection
deriving DecidableEq, Repr

namespace MessageKind

def all : List MessageKind :=
  [descriptionRequest, descriptionResponse, artifactRequest, artifactResponse, contractRequest,
    contractAgreement, messageProcessed, rejection]

def tag : MessageKind → String
  | descriptionRequest => "ids:DescriptionRequestMessage"
  | descriptionResponse => "ids:DescriptionResponseMessage"
  | artifactRequest => "ids:ArtifactRequestMessage"
  | artifactResponse => "ids:ArtifactResponseMessage"
  | contractRequest => "ids:ContractRequestMessage"
  | contractAgreement => "ids:ContractAgreementMessage"
  | messageProcessed => "ids:MessageProcessedNotificationMessage"
  | rejection => "ids:RejectionMessage"

/-- The kind as it stands in the identifier of a message. -/
def localName : MessageKind → String
  | descriptionRequest => "descriptionRequestMessage"
  | descriptionResponse => "descriptionResponseMessage"
  | artifactRequest => "artifactRequestMessage"
  | artifactResponse => "artifactResponseMessage"
  | contractRequest => "contractRequestMessage"
  | contractAgreement => "contractAgreementMessage"
  | messageProcessed => "messageProcessedNotificationMessage"
  | rejection => "rejectionMessage"

def label : MessageKind → String
  | descriptionRequest => "DESCRIPTION_REQUEST"
  | descriptionResponse => "DESCRIPTION_RESPONSE"
  | artifactRequest => "ARTIFACT_REQUEST"
  | artifactResponse => "ARTIFACT_RESPONSE"
  | contractRequest => "CONTRACT_REQUEST"
  | contractAgreement => "CONTRACT_AGREEMENT"
  | messageProcessed => "MESSAGE_PROCESSED"
  | rejection => "REJECTION"

def ofTag? (s : String) : Option MessageKind :=
  all.find? (·.tag == s)

end MessageKind

end Dataspace
