import Dataspace.Engine
import Dataspace.Proofs.Exchange

/-!
# Downloads as lines of jobs

A job is one item of a download: a message goes out, and the reply to it is handed to the store. All
downloads are lines of jobs. They differ in the messages, in where the replies go, and in what is
made of a failure to store one: some keep a record of it and go on, the others end with it.

* **`describe_eq`**, **`artifact_eq`**, **`appArtifact_eq`** — one item is one job.
* **`metadata_eq`**, **`artifacts_eq`** — a list of items is a line of jobs.
-/

namespace Dataspace.Download

open Exchange

variable {σ : Type}

/-- A reply for the store, and what is said of a failure of the store's own. -/
theorem perform_keep (p : Persistence σ) (errand : Errand) (reply : Response) (r : Run σ) :
    perform (keep p errand reply) r =
      match outcome (save p (errand.save reply)) r with
      | .ok _ => (.ok none, after (save p (errand.save reply)) r)
      | .error e =>
        if e.isStoreFailure then
          (.ok (some e), (after (save p (errand.save reply)) r).extended
            (Event.ofNotes errand.component [(.warning, errand.warning e)]))
        else (.error e, after (save p (errand.save reply)) r) := by
  unfold keep outcome after
  rw [perform_bind, perform_attempt]
  cases (perform (save p (errand.save reply)) r).1 with
  | ok _ => rfl
  | error e =>
    cases h : e.isStoreFailure with
    | true => simp only [h, if_true, perform_bind, perform_note, perform_pure]
    | false => simp only [h, Bool.false_eq_true, if_false, perform_throw]

/-! ## Jobs -/

structure Job where
  service : Service
  descriptor : Descriptor
  errand : Errand

namespace Job

/-- A description for the shelf of descriptions. -/
def metadata (depth : Int) (recipient : String) (artifacts : List String) (autoDownload : Bool)
    (resource : String) : Job :=
  ⟨.descriptions depth, .description recipient resource,
    metadataErrand artifacts autoDownload recipient resource⟩

def appResource (depth : Int) (recipient app : String) : Job :=
  ⟨.descriptions depth, .description recipient app, appResourceErrand recipient app⟩

def artifact (recipient transferContract name : String) : Job :=
  ⟨.artifacts, .artifact recipient name (some transferContract), artifactErrand name⟩

def appArtifact (recipient app : String) : Job :=
  ⟨.artifacts, .artifact recipient app none, appArtifactErrand app⟩

/-- The failure that stands for one of the store's own. -/
def unsaved (j : Job) (cause : Error) : Error :=
  .unsaved (j.errand.message cause) cause

/-- What is made of a failure to store the reply: it is recorded, or it ends the download. -/
def settle (records : Bool) (j : Job) : Option Error → Except Error (Option Error)
  | none => .ok none
  | some cause => if records then .ok (some (j.unsaved cause)) else .error (j.unsaved cause)

def carryOut (env : Surroundings σ) (p : Persistence σ) (records : Bool) (j : Job) :
    Exchange σ (Option Error) := do
  let reply ← j.service.sendAndValidate env (some j.descriptor) (.text "")
  let failure ← keep p j.errand reply
  ofResult (j.settle records failure)

/-- One job after another, up to the first that does not return. -/
def carryOutAll (env : Surroundings σ) (p : Persistence σ) (records : Bool) :
    List Job → Exchange σ (List (Option Error))
  | [] => pure []
  | j :: rest => do
    let failure ← j.carryOut env p records
    let failures ← carryOutAll env p records rest
    return failure :: failures

/-- The jobs that an engine has. -/
inductive Usual : Job → Prop
  | metadata (depth : Int) (recipient : String) (artifacts : List String) (autoDownload : Bool)
      (resource : String) : Usual (metadata depth recipient artifacts autoDownload resource)
  | appResource (depth : Int) (recipient app : String) : Usual (appResource depth recipient app)
  | artifact (recipient transferContract name : String) :
      Usual (artifact recipient transferContract name)
  | appArtifact (recipient app : String) : Usual (appArtifact recipient app)

end Job

/-! ## Downloads -/

variable (env : Surroundings σ) (p : Persistence σ)

/-- A failure that must not be is not recorded. -/
theorem keepOrFail_eq (j : Job) (reply : Response) :
    keepOrFail p j.errand reply =
      (do let failure ← keep p j.errand reply
          let _ ← ofResult (j.settle false failure)) := by
  unfold keepOrFail
  congr 1
  funext failure
  cases failure with
  | none => rfl
  | some cause => rfl

theorem describe_eq (s : Service) (recipient element : String) (errand : Errand) :
    describe env p s recipient element errand =
      (do let _ ← Job.carryOut env p false ⟨s, .description recipient element, errand⟩) := by
  unfold describe Job.carryOut
  simp only [bind_assoc]
  congr 1
  funext reply
  exact keepOrFail_eq p ⟨s, .description recipient element, errand⟩ reply

theorem appArtifact_eq (recipient app : String) :
    appArtifact env p recipient app =
      (do let _ ← (Job.appArtifact recipient app).carryOut env p false) := by
  unfold appArtifact Job.carryOut
  simp only [bind_assoc]
  congr 1
  funext reply
  exact keepOrFail_eq p (Job.appArtifact recipient app) reply

theorem artifact_eq (policy : FailurePolicy) (recipient transferContract name : String) :
    artifact env p policy recipient transferContract name =
      (do let failure ← (Job.artifact recipient transferContract name).carryOut env p
            (decide (policy = .carryOn))
          return ⟨name, failure⟩) := by
  unfold artifact Job.carryOut
  simp only [bind_assoc]
  congr 1
  funext reply
  congr 1
  funext failure
  cases failure with
  | none => rfl
  | some cause =>
    cases policy with
    | abort => rfl
    | carryOn => rfl

theorem metadata_eq (depth : Int) (recipient : String) (artifacts : List String)
    (autoDownload : Bool) (resources : List String) :
    metadata env p (.descriptions depth) recipient artifacts autoDownload resources =
      (do let _ ← Job.carryOutAll env p false
            (resources.map (Job.metadata depth recipient artifacts autoDownload))) := by
  induction resources with
  | nil => rfl
  | cons resource rest ih =>
    rw [metadata, describe_eq, ih, List.map_cons, Job.carryOutAll]
    simp only [bind_assoc, pure_bind]
    rfl

theorem artifacts_eq (policy : FailurePolicy) (recipient transferContract : String)
    (names : List String) :
    artifacts env p policy recipient transferContract names =
      (do let failures ← Job.carryOutAll env p (decide (policy = .carryOn))
            (names.map (Job.artifact recipient transferContract))
          return names.zipWith ArtifactResult.mk failures) := by
  induction names with
  | nil => rfl
  | cons name rest ih =>
    rw [artifacts, artifact_eq, ih, List.map_cons, Job.carryOutAll]
    simp only [bind_assoc, pure_bind]
    rfl

end Dataspace.Download
