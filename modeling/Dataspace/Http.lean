import Dataspace.Exchange
import Dataspace.Multipart

/-!
# Messages over HTTP

A message is posted as a form, and the reply is read as one. Peers send rejections in parts on error
statuses too, so that a status counts only where the reply is not in parts or cannot be read.

`Http.receive` is the whole rule from what came back to what the sender gets. The connections of a
transport are opened at the first use and kept until they are released (`Connections`).
-/

namespace Dataspace.Http

open Text (Octets)

structure Request where
  method : String
  url : String
  contentType : String
  body : Octets
deriving DecidableEq, Repr

structure Reply where
  status : Nat
  contentType : Option String
  body : Octets
deriving DecidableEq, Repr

namespace Reply

def isSuccess (r : Reply) : Bool :=
  200 ≤ r.status && r.status < 300

def isError (r : Reply) : Bool :=
  400 ≤ r.status && r.status < 600

end Reply

/-- Why no reply came. -/
inductive Failure where
  | timeout (detail : String)
  | network (detail : String)
  | other (e : Error)
deriving DecidableEq

/-! ## From reply to response -/

/-- The response in a reply in parts. What cannot be read on an error status is reported with the
status. -/
def receiveParts (recipient : String) (r : Reply) : Except Error Response × List Note :=
  match Multipart.decode (some (r.contentType.getD "")) r.body with
  | .ok response => (.ok response, [])
  | .error (.transport fault _) =>
    if r.isError then
      (.error (.unreadableReply r.status fault recipient),
        [(.error, "Peer " ++ recipient ++ " answered HTTP " ++ Decimal.ofNat r.status ++
          " with an unreadable message")])
    else (.error (.transport fault (some recipient)), [])
  | .error e => (.error e, [])

/-- What the sender gets, and what is said of it. -/
def receive (recipient : String) : Except Failure Reply → Except Error Response × List Note
  | .error (.timeout detail) =>
    (.error (.transport (.timeout detail) (some recipient)),
      [(.error, "Timeout talking to " ++ recipient ++ ": " ++ detail)])
  | .error (.network detail) =>
    (.error (.transport (.network detail) (some recipient)),
      [(.error, "Network error talking to " ++ recipient ++ ": " ++ detail)])
  | .error (.other e) => (.error e, [])
  | .ok r =>
    if !Multipart.isMultipart r.contentType && !r.isSuccess then
      (.error (.transport (.status r.status) (some recipient)),
        [(.error, "Peer " ++ recipient ++ " answered HTTP " ++ Decimal.ofNat r.status)])
    else receiveParts recipient r

/-! ## Connections -/

/-- The seconds that each stage of an exchange may take. -/
structure Timeouts where
  connect : Binary64
  read : Binary64
  write : Binary64
  pool : Binary64
deriving DecidableEq, Repr

/-- One limit for connecting, and one for everything else. -/
def Timeouts.ofLimits (request connect : Binary64) : Timeouts :=
  ⟨connect, request, request, request⟩

/-- The connections of a transport: the current set by its number, and how many sets were opened. -/
structure Connections where
  current : Option Nat
  opened : Nat
deriving DecidableEq, Repr

namespace Connections

def none : Connections := ⟨.none, 0⟩

/-- The current set of connections, opened if there is none. -/
def acquire (c : Connections) : Nat × Connections :=
  match c.current with
  | some n => (n, c)
  | .none => (c.opened + 1, ⟨some (c.opened + 1), c.opened + 1⟩)

def release (c : Connections) : Connections :=
  { c with current := .none }

end Connections

/-! ## Transport -/

/-- The net as a transport sees it. -/
structure Network (σ : Type) where
  exchange : Request → σ → Except Failure Reply × σ
  /-- A text that occurs in no message. -/
  boundary : σ → String
  connections : σ → Connections
  withConnections : Connections → σ → σ

def request (boundary : String) (call : Call) : Request :=
  ⟨"POST", call.recipient, Multipart.formType boundary,
    Multipart.frame boundary (Multipart.filesOf call.header call.payload)⟩

def send {σ : Type} (net : Network σ) (call : Call) (world : σ) : Outcome σ Response :=
  let world := net.withConnections (net.connections world).acquire.2 world
  let (reply, world) := net.exchange (request (net.boundary world) call) world
  let (result, notes) := receive call.recipient reply
  ⟨result, notes, world⟩

def release {σ : Type} (net : Network σ) (world : σ) : σ :=
  net.withConnections (net.connections world).release world

def transport {σ : Type} (net : Network σ) : Transport σ :=
  ⟨"HttpMessageTransport", send net, some (release net)⟩

end Dataspace.Http
