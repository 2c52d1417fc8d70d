import Dataspace.Store

/-!
# Exchanges with the surroundings

A connector works among collaborators: someone who says who it is, a transport to its peers, a store
for what it gets and a book of agreements. `Exchange σ` is the type of its actions; `σ` is the state
of those surroundings, about which nothing is assumed. An action ends with a value or an error, and
in either case the state and the chronicle of events go on from where it ended.

The chronicle only grows: every message handed to the transport, every reply handed to the store,
every identity asked for, every identifier drawn and every log record is in it, in order.
-/

namespace Dataspace

/-- A message on its way. -/
structure Call where
  recipient : String
  header : Header
  payload : Payload
deriving DecidableEq

inductive Event where
  | sent (call : Call)
  | saved (save : Save)
  | asked (who : Identity)
  | drew (u : Uuid)
  | noted (record : LogRecord)
deriving DecidableEq

/-- Where a connector stands in the course of its work. -/
structure Run (σ : Type) where
  world : σ
  shelves : Shelves
  book : AgreementBook
  /-- The number of identities asked for. -/
  asked : Nat
  /-- The number of identifiers drawn. -/
  drawn : Nat
  events : List Event

/-- The beginning, with the agreements known already. -/
def Run.start {σ : Type} (world : σ) (book : AgreementBook) : Run σ :=
  ⟨world, .empty, book, 0, 0, []⟩

abbrev Exchange (σ : Type) := ExceptT Error (StateM (Run σ))

/-- What a collaborator does when asked: an answer or an error, what it says of it, and the state
of the surroundings after it. -/
structure Outcome (σ α : Type) where
  result : Except Error α
  notes : List Note
  world : σ

structure Transport (σ : Type) where
  name : String
  send : Call → σ → Outcome σ Response
  /-- Lets go of connections, if the transport holds any. -/
  close : Option (σ → σ)

inductive Persistence (σ : Type) where
  /-- The shelves of this library, behind anything that may hinder a save. -/
  | inMemory (hindrance : Save → σ → Option Error × σ)
  | external (name : String) (save : Save → σ → Outcome σ Unit)

def Persistence.name {σ : Type} : Persistence σ → String
  | inMemory _ => "InMemoryPersistence"
  | external name _ => name

inductive AgreementService where
  /-- The book of this library. -/
  | inMemory
  /-- Agreements that are known elsewhere and can only be looked up. -/
  | lookup (find : String → Except Error AgreementRecord)

/-- Who the connector is, at the n-th time of asking. -/
inductive IdentitySource where
  | snapshots (whoAt : Nat → Identity)
  | settled (connectorId modelVersion : String) (tokenAt : Nat → String)

namespace IdentitySource

def whoAt : IdentitySource → Nat → Identity
  | snapshots who, n => who n
  | settled connectorId modelVersion tokenAt, n => ⟨connectorId, modelVersion, tokenAt n⟩

/-- A settled identity says when it lacks a token. -/
def notes : IdentitySource → Identity → List Note
  | snapshots _, _ => []
  | settled _ _ _, who =>
    if who.token.isEmpty then [(.debug, "No security token available for " ++ who.connectorId)]
    else []

end IdentitySource

/-- What the sending of messages depends on. -/
structure Surroundings (σ : Type) where
  identity : IdentitySource
  transport : Transport σ
  /-- The n-th identifier drawn. -/
  uuidAt : Nat → Uuid
  /-- The time at which the n-th message is built. -/
  clock : Nat → Timestamp

namespace Exchange

variable {σ α : Type}

def record (events : List Event) : Exchange σ Unit :=
  modify fun r => { r with events := r.events ++ events }

def say (component : Component) (notes : List Note) : Exchange σ Unit :=
  record (notes.map fun n => .noted (n.by component))

def note (level : Level) (component : Component) (text : String) : Exchange σ Unit :=
  say component [(level, text)]

def ofResult : Except Error α → Exchange σ α
  | .ok a => pure a
  | .error e => throw e

/-- The action's value or its error, as a value. -/
def attempt (x : Exchange σ α) : Exchange σ (Except Error α) :=
  ExceptT.mk (do return .ok (← x.run))

def identity (source : IdentitySource) : Exchange σ Identity := do
  let r ← get
  let who := source.whoAt r.asked
  set { r with asked := r.asked + 1 }
  record [.asked who]
  say .identity (source.notes who)
  return who

def uuid (uuidAt : Nat → Uuid) : Exchange σ Uuid := do
  let r ← get
  let u := uuidAt r.drawn
  set { r with drawn := r.drawn + 1 }
  record [.drew u]
  return u

def transmit (t : Transport σ) (call : Call) : Exchange σ Response := do
  record [.sent call]
  let r ← get
  let out := t.send call r.world
  set { r with world := out.world }
  say .transport out.notes
  ofResult out.result

def save (p : Persistence σ) (s : Save) : Exchange σ Unit := do
  record [.saved s]
  let r ← get
  match p with
  | .external _ store =>
    let out := store s r.world
    set { r with world := out.world }
    say .memory out.notes
    ofResult out.result
  | .inMemory hindrance =>
    let (obstacle, world) := hindrance s r.world
    set { r with world := world }
    match obstacle with
    | some e => throw e
    | none =>
      let shelves ← ofResult (r.shelves.save s)
      modify fun r => { r with shelves := shelves }
      say .memory (Shelves.notes s)

def findAgreement (service : AgreementService) (id : String) : Exchange σ AgreementRecord :=
  match service with
  | .inMemory => do ofResult ((← get).book.find id)
  | .lookup find => ofResult (find id)

/-- Enters an agreement into the book under a new identifier. -/
def storeAgreement (uuidAt : Nat → Uuid) (agreement : Contract) : Exchange σ AgreementRecord := do
  let u ← uuid uuidAt
  let entry := AgreementBook.recordFor agreement u
  modify fun r => { r with book := r.book.put entry.agreementId entry }
  note .info .memory ("Stored agreement " ++ agreement.id ++ " as " ++ entry.agreementId)
  return entry

end Exchange

end Dataspace
