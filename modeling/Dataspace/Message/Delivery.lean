import Dataspace.Exchange

/-!
# Delivery

The one way in which messages of every kind go out: build the message, hand it to the transport,
look at the kind of the reply. A descriptor that the profile refuses costs nothing: no identity is
asked for and no identifier drawn.
-/

namespace Dataspace.Service

open Exchange

variable {σ : Type}

/-- Builds the message for a descriptor, with the identity of this moment. -/
def build (env : Surroundings σ) (s : Service) (d : Option Descriptor) : Exchange σ Message := do
  match s.profile.accept d with
  | .error flaw => throw (.descriptor flaw)
  | .ok d =>
    let now := env.clock (← get).asked
    let who ← identity env.identity
    let u ← uuid env.uuidAt
    return s.message d who u now

/-- A failure of the transport as the sender reports it. -/
def sendError (s : Service) (recipient : String) (e : Error) : Error :=
  if e.family = .transport then e else .sending s.profile.kind recipient e

/-- The beginning of every record about a message of this service. -/
def logLine (s : Service) (verb recipient rest : String) : String :=
  "Message " ++ verb ++ " | " ++ s.profile.kind.tag ++ " | recipient=" ++ recipient ++ rest

/-- Builds and sends a message; the reply comes back whatever its kind. -/
def send (env : Surroundings σ) (s : Service) (d : Option Descriptor) (payload : Payload) :
    Exchange σ Response := do
  let m ← s.build env d
  let recipient := (d.map Descriptor.recipient).getD ""
  note .info .messaging (s.logLine "SEND" recipient "")
  match ← attempt (transmit env.transport ⟨recipient, m.header, payload⟩) with
  | .error e =>
    note .error .messaging (s.logLine "FAIL" recipient (" | " ++ elapsed ++ " | " ++ e.message))
    throw (s.sendError recipient e)
  | .ok r =>
    note .info .messaging
      (s.logLine "OK  " recipient (" | " ++ elapsed ++ " | reply=" ++ shownOrNone r.kind))
    return r

/-- What is reported of a reply of another kind. -/
def unexpected (s : Service) (r : Response) : UnexpectedReply :=
  ⟨s.profile.expected.tag, r.kind, some r, some r.payload, r.rejectionReason⟩

/-- What is said of a reply of another kind. -/
def unexpectedLine (s : Service) (recipient : String) (r : Response) : String :=
  if r.kind = some MessageKind.rejection.tag then
    s.logLine "REJECTED" recipient (" | reason=" ++ shownOrNone r.rejectionReason)
  else
    s.logLine "UNEXPECTED" recipient
      (" | expected=" ++ s.profile.expected.tag ++ " | got=" ++ shownOrNone r.kind)

/-- Sends a message; only a reply of the expected kind comes back. -/
def sendAndValidate (env : Surroundings σ) (s : Service) (d : Option Descriptor)
    (payload : Payload) : Exchange σ Response := do
  let r ← s.send env d payload
  if s.accepts r then return r
  else
    note .warning .messaging (s.unexpectedLine ((d.map Descriptor.recipient).getD "") r)
    throw (.unexpectedReply (s.unexpected r))

end Dataspace.Service
