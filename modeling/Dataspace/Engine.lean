import Dataspace.Download
import Dataspace.Negotiation

/-!
# The engine

What one connector does for its owner: negotiate contracts, download descriptions and artifacts.
An engine holds settings only; all that changes is in the run.
-/

namespace Dataspace

structure Engine (σ : Type) extends Surroundings σ where
  persistence : Persistence σ
  agreements : AgreementService
  /-- The number of levels of a description that are asked for. -/
  depth : Int
  policy : FailurePolicy
  /-- Whether an agreement is sent back to the provider. -/
  confirms : Bool
  examiner : Examiner

namespace Engine

open Exchange

variable {σ : Type}

def descriptions (e : Engine σ) : Service :=
  .descriptions e.depth

def steps (e : Engine σ) : List NegotiationStep :=
  Negotiation.usualSteps e.confirms

/-- The agreement that was reached, if there is one. -/
def agreed (n : Negotiation) : Exchange σ Contract :=
  match n.agreement with
  | some agreement => pure agreement
  | none => throw (.agreement .notValidated)

/-- Negotiates a contract and keeps the agreement if the book takes it. -/
def negotiate (e : Engine σ) (recipient : String) (request : Contract) : Exchange σ Contract := do
  let n ← Negotiation.run e.toSurroundings e.examiner e.steps recipient request
  let agreement ← agreed n
  match e.agreements with
  | .inMemory =>
    let _ ← storeAgreement e.uuidAt agreement
  | .lookup _ =>
    note .debug .engine
      ("Agreement collaborator cannot store; leaving " ++ agreement.id ++ " to the caller")
  return agreement

def downloadMetadata (e : Engine σ) (recipient : String) (resources artifacts : List String)
    (autoDownload : Bool) : Exchange σ Unit := do
  note .info .metadata ("Downloading metadata for " ++ Decimal.ofNat resources.length ++
    " resource(s) from " ++ recipient)
  Download.metadata e.toSurroundings e.persistence e.descriptions recipient artifacts autoDownload
    resources

def downloadAppResource (e : Engine σ) (recipient app : String) : Exchange σ Unit :=
  Download.describe e.toSurroundings e.persistence e.descriptions recipient app
    (Download.appResourceErrand recipient app)

/-- Downloads artifacts under a known agreement, which is looked up once. -/
def downloadArtifacts (e : Engine σ) (recipient : String) (artifacts : List String)
    (agreementId : String) : Exchange σ (List ArtifactResult) := do
  let transferContract := (← findAgreement e.agreements agreementId).remoteId
  note .info .artifacts ("Downloading " ++ Decimal.ofNat artifacts.length ++ " artifact(s) from " ++
    recipient ++ " under " ++ transferContract ++ " (policy=" ++ e.policy.name ++ ")")
  Download.artifacts e.toSurroundings e.persistence e.policy recipient transferContract artifacts

def downloadAppArtifact (e : Engine σ) (recipient app : String) : Exchange σ Unit :=
  Download.appArtifact e.toSurroundings e.persistence recipient app

/-- Releases the connections of the transport, if it holds any. -/
def close (e : Engine σ) : Exchange σ Unit :=
  match e.transport.close with
  | none => pure ()
  | some release => do
    modify fun r => { r with world := release r.world }
    note .debug .engine ("Closed transport " ++ e.transport.name)

end Engine

end Dataspace
