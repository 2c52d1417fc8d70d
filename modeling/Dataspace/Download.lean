import Dataspace.Message.Delivery

/-!
# Downloads

Descriptions and artifacts are asked for one at a time, in the order of the list, and each reply is
handed to the store before the next is asked for. A failed exchange ends the list. So does a failure
to store a description; after a failure to store an artifact the policy decides.
-/

namespace Dataspace

/-- What follows when the data of an artifact cannot be stored. -/
inductive FailurePolicy where
  | abort
  | carryOn
deriving DecidableEq, Repr

namespace FailurePolicy

def name : FailurePolicy → String
  | abort => "abort"
  | carryOn => "continue"

def ofName? (s : String) : Option FailurePolicy :=
  [abort, carryOn].find? (·.name == s)

end FailurePolicy

/-- What became of one artifact: `none` if its data was stored. -/
structure ArtifactResult where
  artifact : String
  failure : Option Error
deriving DecidableEq

namespace ArtifactResult

def stored (artifact : String) : ArtifactResult := ⟨artifact, none⟩

def failed (artifact message : String) (cause : Error) : ArtifactResult :=
  ⟨artifact, some (.unsaved message cause)⟩

end ArtifactResult

namespace Download

open Exchange

variable {σ : Type}

/-- Where replies go, and how failures to store them are spoken of. -/
structure Errand where
  component : Component
  save : Response → Save
  /-- What is logged of a failure. -/
  warning : Error → String
  /-- What is reported of a failure. -/
  message : Error → String

def metadataErrand (artifacts : List String) (autoDownload : Bool) (recipient resource : String) :
    Errand :=
  ⟨.metadata, fun r => .metadata r artifacts autoDownload recipient,
    fun e =>
      "Could not save metadata. [resource=" ++ resource ++ ", exception=" ++ e.message ++ "]",
    fun e => "Could not save metadata for " ++ resource ++ ": " ++ e.message⟩

def appResourceErrand (recipient app : String) : Errand :=
  ⟨.metadata, fun r => .appResource r recipient,
    fun e =>
      "Could not save app resource. [app resource=" ++ app ++ ", exception=" ++ e.message ++ "]",
    fun e => "Could not save app resource " ++ app ++ ": " ++ e.message⟩

def artifactErrand (artifact : String) : Errand :=
  ⟨.artifacts, fun r => .data r artifact,
    fun e =>
      "Could not save data for artifact, it may be retried later. [artifact=" ++ artifact ++
        ", exception=" ++ e.message ++ "]",
    fun e => "Could not save data for artifact " ++ artifact ++ ": " ++ e.message⟩

def appArtifactErrand (app : String) : Errand :=
  ⟨.artifacts, fun r => .appData r app,
    fun e =>
      "Could not save data for app artifact, it may be retried later. [app artifact=" ++ app ++
        ", exception=" ++ e.message ++ "]",
    fun e => "Could not save data for app artifact " ++ app ++ ": " ++ e.message⟩

/-- Hands a reply to the store: `none`, or the store's own failure after it was logged. Any other
error is the caller's. -/
def keep (p : Persistence σ) (errand : Errand) (r : Response) : Exchange σ (Option Error) := do
  match ← attempt (save p (errand.save r)) with
  | .ok () => return none
  | .error e =>
    if e.isStoreFailure then
      note .warning errand.component (errand.warning e)
      return some e
    else throw e

/-- Hands a reply to the store, which must take it. -/
def keepOrFail (p : Persistence σ) (errand : Errand) (r : Response) : Exchange σ Unit := do
  match ← keep p errand r with
  | none => return ()
  | some e => throw (.unsaved (errand.message e) e)

def describe (env : Surroundings σ) (p : Persistence σ) (descriptions : Service)
    (recipient element : String) (errand : Errand) : Exchange σ Unit := do
  let r ← descriptions.sendAndValidate env (some (.description recipient element)) (.text "")
  keepOrFail p errand r

/-- The descriptions of all resources. -/
def metadata (env : Surroundings σ) (p : Persistence σ) (descriptions : Service)
    (recipient : String) (artifacts : List String) (autoDownload : Bool) :
    (resources : List String) → Exchange σ Unit
  | [] => pure ()
  | resource :: rest => do
    describe env p descriptions recipient resource
      (metadataErrand artifacts autoDownload recipient resource)
    metadata env p descriptions recipient artifacts autoDownload rest

def fetch (env : Surroundings σ) (recipient artifact : String) (transferContract : Option String) :
    Exchange σ Response :=
  Service.artifacts.sendAndValidate env (some (.artifact recipient artifact transferContract))
    (.text "")

/-- The data of one artifact, asked for and stored as the policy has it. -/
def artifact (env : Surroundings σ) (p : Persistence σ) (policy : FailurePolicy)
    (recipient transferContract name : String) : Exchange σ ArtifactResult := do
  let r ← fetch env recipient name (some transferContract)
  let errand := artifactErrand name
  match ← keep p errand r with
  | none => return .stored name
  | some e =>
    match policy with
    | .abort => throw (.unsaved (errand.message e) e)
    | .carryOn => return .failed name (errand.message e) e

/-- The data of all artifacts, under one contract. -/
def artifacts (env : Surroundings σ) (p : Persistence σ) (policy : FailurePolicy)
    (recipient transferContract : String) :
    (names : List String) → Exchange σ (List ArtifactResult)
  | [] => pure []
  | name :: rest => do
    let result ← artifact env p policy recipient transferContract name
    let results ← artifacts env p policy recipient transferContract rest
    return result :: results

def appArtifact (env : Surroundings σ) (p : Persistence σ) (recipient app : String) :
    Exchange σ Unit := do
  let r ← fetch env recipient app none
  keepOrFail p (appArtifactErrand app) r

end Download

end Dataspace
