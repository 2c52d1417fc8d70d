import Dataspace.Contract.Basic
import Dataspace.Error
import Dataspace.Log

/-!
# What a connector keeps

`Shelves` hold what was downloaded: descriptions and app descriptions by the peer they came from,
the data of artifacts and apps by their identifiers. `AgreementBook` holds agreements by identifiers
given here. Both stay in memory.
-/

namespace Dataspace

/-- One reply handed over for keeping. -/
inductive Save where
  | metadata (response : Response) (artifacts : List String) (autoDownload : Bool)
      (recipient : String)
  | data (response : Response) (artifact : String)
  | appData (response : Response) (app : String)
  | appResource (response : Response) (recipient : String)
deriving DecidableEq

/-- A description, with the artifacts it was asked for along with. -/
structure MetadataEntry where
  response : Response
  artifacts : List String
  autoDownload : Bool
deriving DecidableEq

structure Shelves where
  metadata : Fields (List MetadataEntry)
  data : Fields Text.Octets
  appData : Fields Text.Octets
  appResources : Fields (List Response)
deriving DecidableEq

namespace Shelves

def empty : Shelves := ⟨.empty, .empty, .empty, .empty⟩

/-- The octets of a reply's payload; an empty payload is nothing to keep, and a broken text has no
octets. -/
def payloadFor (response : Response) (subject : String) : Except Error Text.Octets :=
  match response.payload.wire with
  | .error fault => .error (.octets fault)
  | .ok [] => .error (.noPayload subject)
  | .ok (b :: r) => .ok (b :: r)

def save (s : Shelves) : Save → Except Error Shelves
  | .metadata response artifacts autoDownload recipient =>
    .ok { s with metadata := s.metadata.append recipient ⟨response, artifacts, autoDownload⟩ }
  | .data response artifact =>
    (payloadFor response artifact).map fun octets => { s with data := s.data.put artifact octets }
  | .appData response app =>
    (payloadFor response app).map fun octets => { s with appData := s.appData.put app octets }
  | .appResource response recipient =>
    .ok { s with appResources := s.appResources.append recipient response }

/-- What the shelves say of a reply they took. -/
def notes : Save → List Note
  | .metadata _ artifacts _ recipient =>
    [(.debug, "Stored metadata from " ++ recipient ++ " (" ++ Decimal.ofNat artifacts.length ++
      " artifacts)")]
  | _ => []

end Shelves

/-! ## Agreements -/

/-- A known agreement: its identifier here, its identifier at the provider, and the agreement. -/
structure AgreementRecord where
  agreementId : String
  remoteId : String
  agreement : Option Contract
deriving DecidableEq

/-- Agreements by their identifiers here. -/
abbrev AgreementBook := Fields AgreementRecord

namespace AgreementBook

def ofRecords (records : List AgreementRecord) : AgreementBook :=
  .ofPairs (records.map fun r => (r.agreementId, r))

def records (b : AgreementBook) : List AgreementRecord :=
  b.entries.map Prod.snd

def find (b : AgreementBook) (id : String) : Except Error AgreementRecord :=
  match b.get? id with
  | some r => .ok r
  | none => .error (.unknownAgreement id)

/-- The record under which an agreement is kept. -/
def recordFor (agreement : Contract) (u : Uuid) : AgreementRecord :=
  ⟨u.localId "agr", agreement.id, some agreement⟩

end AgreementBook

end Dataspace
