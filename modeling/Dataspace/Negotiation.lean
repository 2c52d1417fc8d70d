import Dataspace.Contract.Examination
import Dataspace.Contract.Writer
import Dataspace.Message.Delivery

/-!
# Negotiation

A negotiation asks a provider for a contract and takes the agreement in the reply if it matches the
request. It is a line of steps, each of which adds to what is known; the first that fails ends it.
-/

namespace Dataspace

/-- What one negotiation knows. -/
structure Negotiation where
  recipient : String
  request : Contract
  response : Option Response
  body : Option Received
  agreement : Option Contract
  published : Bool
  confirmed : Bool
deriving DecidableEq

def Negotiation.start (recipient : String) (request : Contract) : Negotiation :=
  ⟨recipient, request, none, none, none, false, false⟩

inductive NegotiationStep where
  | sendRequest
  | extractAgreement
  | validateAgreement
  | publishAgreement
  | confirmAgreement
deriving DecidableEq, Repr

namespace NegotiationStep

def name : NegotiationStep → String
  | sendRequest => "send_request"
  | extractAgreement => "extract_agreement"
  | validateAgreement => "validate_agreement"
  | publishAgreement => "publish_agreement"
  | confirmAgreement => "confirm_agreement"

end NegotiationStep

namespace Negotiation

open Exchange

variable {σ : Type}

/-- A contract as the payload of a message about it. -/
def contractPayload (c : Contract) : Payload :=
  .text c.document

/-- Sends a contract in a message of the given service, about the contract itself. -/
def sendContract (env : Surroundings σ) (s : Service) (recipient : String) (c : Contract) :
    Exchange σ Response :=
  s.sendAndValidate env (some (.about s.profile.kind recipient c.id)) (contractPayload c)

/-- The text in the payload of the reply. -/
def extract (n : Negotiation) : Except Error Negotiation :=
  match n.response with
  | none => .error (.agreement .noResponse)
  | some r =>
    match r.payload.toText .utf8 with
    | .error fault => .error (.agreement (.notText fault))
    | .ok body => .ok { n with body := some body }

def publish (n : Negotiation) : Except Error Negotiation :=
  match n.agreement with
  | none => .error (.agreement .notValidated)
  | some _ => .ok { n with published := true }

def step (env : Surroundings σ) (x : Examiner) (n : Negotiation) :
    NegotiationStep → Exchange σ Negotiation
  | .sendRequest => do
    let r ← sendContract env .contractRequests n.recipient n.request
    return { n with response := some r }
  | .extractAgreement => ofResult n.extract
  | .validateAgreement => do
    let (result, notes) := x.examine n.body n.request
    say .examination notes
    let agreement ← ofResult result
    return { n with agreement := some agreement }
  | .publishAgreement => ofResult n.publish
  | .confirmAgreement =>
    match n.agreement with
    | none => throw .nothingToConfirm
    | some agreement => do
      let _ ← sendContract env .contractAgreements n.recipient agreement
      return { n with confirmed := true }

/-- The steps one after another. -/
def advance (env : Surroundings σ) (x : Examiner) (n : Negotiation) :
    List NegotiationStep → Exchange σ Negotiation
  | [] => pure n
  | s :: rest => do
    match ← attempt (step env x n s) with
    | .error e =>
      note .warning .negotiation ("Negotiation " ++ n.request.id ++ " with " ++ n.recipient ++
        " aborted at " ++ s.name ++ ": " ++ e.message)
      throw e
    | .ok n' =>
      note .debug .negotiation ("Negotiation " ++ n.request.id ++ ": step " ++ s.name ++ " done")
      advance env x n' rest

def run (env : Surroundings σ) (x : Examiner) (steps : List NegotiationStep)
    (recipient : String) (request : Contract) : Exchange σ Negotiation := do
  let n ← advance env x (start recipient request) steps
  note .info .negotiation ("Negotiation " ++ request.id ++ " with " ++ recipient ++
    " completed in " ++ elapsed ++ " (agreement=" ++ shownOrNone (n.agreement.map Contract.id) ++
    ")")
  return n

/-- The usual steps; confirming is optional. -/
def usualSteps (confirms : Bool) : List NegotiationStep :=
  [.sendRequest, .extractAgreement, .validateAgreement, .publishAgreement] ++
    (if confirms then [.confirmAgreement] else [])

end Negotiation

end Dataspace
