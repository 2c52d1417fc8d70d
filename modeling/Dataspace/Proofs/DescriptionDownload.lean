import Dataspace.Proofs.ArtifactDownload
import Dataspace.Proofs.HeaderLayers
import Dataspace.Proofs.Lines

/-!
# A download of descriptions, resource by resource

Every resource has a request and, if a description came for it, one save. Nothing is tried twice and
nothing is passed over: the first exchange or save that fails ends the download.

* **`Survey.Described`** — what one resource comes to, given what the transport and the store
  answered.
* **`Survey.Course`** — what a list comes to: all its resources were described, or all before the
  one that failed.
* **`downloadMetadata_course`** — a download has such a course, and returns exactly if every
  exchange and every save in it succeeded.
-/

namespace Dataspace

open Exchange

variable {σ : Type}

/-- The event at which an answer is heard. -/
def Answer.event : Answer → Event
  | sent call _ => .sent call
  | saved save _ => .saved save

/-- An answer of the transport or of the store for each request and each save. -/
theorem Answered.traffic_eq {t : Transport σ} {p : Persistence σ} {r r' : Run σ}
    {answers : List Answer} (h : Answered t p r r' answers) :
    r'.traffic = r.traffic ++ answers.map Answer.event := by
  have htraffic : ∀ events : List Event,
      events.filter Event.isTraffic = events.filterMap (Option.guard Event.isTraffic) :=
    fun events => (congrFun (List.filterMap_eq_filter (p := Event.isTraffic)) events).symm
  unfold Run.traffic
  rw [htraffic, htraffic, ← List.filterMap_eq_map]
  exact h.filterMap_eq fun _ event => by cases event <;> rfl

namespace Download

/-! ## The message of a job -/

/-- A job whose descriptor is accepted sends one message. -/
theorem Job.calls_carryOut {j : Job}
    (haccept : j.service.profile.accept (some j.descriptor) = .ok j.descriptor)
    (env : Surroundings σ) (p : Persistence σ) (records : Bool) (r : Run σ) :
    (after (j.carryOut env p records) r).calls =
      r.calls ++ [j.service.callAt env j.descriptor (.text "") r.asked r.drawn] := by
  have hdeaf : Deaf (σ := σ) Run.calls := fun r component notes => by simp
  have hsave : ∀ s, Keeps Run.calls (save p s) := fun s r => by
    rw [Run.calls_eq_traffic, traffic_save, List.filterMap_append, ← Run.calls_eq_traffic]
    exact List.append_nil _
  -- what follows the reply sends nothing
  have hrest : ∀ reply, Keeps (σ := σ) Run.calls (do
      let failure ← keep p j.errand reply
      ofResult (j.settle records failure)) := fun reply =>
    (Keeps.keep hdeaf hsave j.errand reply).bind fun failure =>
      (Keeps.congruence hdeaf).ofResult (j.settle records failure)
  rw [carryOut, Keeps.after_bind hrest, after, Service.perform_sendAndValidate env haccept,
    Service.calls_exchanged]

/-! ## One resource -/

/-- What the descriptions of one download have in common. -/
structure Survey where
  depth : Int
  recipient : String
  artifacts : List String
  autoDownload : Bool

namespace Survey

variable (q : Survey) {resource : String} {answers : List Answer}

/-- The message asks the peer for the description of one resource, as deep as it should be. -/
structure Asks (resource : String) (call : Call) : Prop where
  recipient : call.recipient = q.recipient
  kind : call.header.get? "@type" = some MessageKind.descriptionRequest.tag
  element : call.header.get? "ids:requestedElement" = some resource
  depth : call.header.get? "ids:depth" = some (Decimal.ofInt q.depth)

/-- How a description goes to the store: with all the artifacts of the download and its flag. -/
def save (reply : Response) : Save :=
  .metadata reply q.artifacts q.autoDownload q.recipient

/-- The reply is a description. -/
def IsDescription (reply : Response) : Prop :=
  reply.kind = some MessageKind.descriptionResponse.tag

/-- What one resource comes to, and the answers that were heard for it: one for its request, and one
for the save of the reply to this request. -/
inductive Described (resource : String) : List Answer → Except Error Unit → Prop
  | stored {call : Call} {reply : Response} (asks : q.Asks resource call)
      (kind : IsDescription reply) :
      Described resource [.sent call (.ok reply), .saved (q.save reply) (.ok ())] (.ok ())
  | unsent {call : Call} {cause : Error} (asks : q.Asks resource call) :
      Described resource [.sent call (.error cause)]
        (.error ((Service.descriptions q.depth).sendError q.recipient cause))
  | unexpected {call : Call} {reply : Response} (asks : q.Asks resource call)
      (kind : ¬ IsDescription reply) :
      Described resource [.sent call (.ok reply)]
        (.error (.unexpectedReply ((Service.descriptions q.depth).unexpected reply)))
  | unsaved {call : Call} {reply : Response} {cause : Error} (asks : q.Asks resource call)
      (kind : IsDescription reply) (own : cause.isStoreFailure = true) :
      Described resource [.sent call (.ok reply), .saved (q.save reply) (.error cause)]
        (.error (.unsaved ("Could not save metadata for " ++ resource ++ ": " ++ cause.message)
          cause))
  | foreign {call : Call} {reply : Response} {cause : Error} (asks : q.Asks resource call)
      (kind : IsDescription reply) (own : cause.isStoreFailure = false) :
      Described resource [.sent call (.ok reply), .saved (q.save reply) (.error cause)]
        (.error cause)

/-- The job of one resource. -/
def job (resource : String) : Job :=
  .metadata q.depth q.recipient q.artifacts q.autoDownload resource

variable {q}

theorem accept_job (hrecipient : q.recipient ≠ "") (hresource : resource ≠ "") :
    (q.job resource).service.profile.accept (some (q.job resource).descriptor) =
      .ok (q.job resource).descriptor :=
  Profile.accept_about rfl hrecipient hresource

theorem asks_callAt (hresource : resource ≠ "") (env : Surroundings σ) (payload : Payload)
    (asked drawn : Nat) :
    q.Asks resource
      ((q.job resource).service.callAt env (q.job resource).descriptor payload asked drawn) where
  recipient := rfl
  kind := Service.Usual.type_callAt (.descriptions q.depth) rfl
  element := by
    have helement : ((q.job resource).service.callAt env (q.job resource).descriptor payload asked
        drawn).header.get? "ids:requestedElement" = Service.filled (some resource) :=
      Message.get?_header_requestedElement
        (Service.Usual.not_mem_properties (.descriptions q.depth) rfl (by decide))
    rw [helement, Service.filled_some, if_neg hresource]
  depth := Service.get?_header_message _ _ _ _ _ _

/-- **Every resource comes to what its answers have it come to.** -/
theorem exists_described (hrecipient : q.recipient ≠ "") (hresource : resource ≠ "")
    (env : Surroundings σ) (p : Persistence σ) (r : Run σ) :
    ∃ answers,
      Answered env.transport p r (after ((q.job resource).carryOut env p false) r) answers ∧
      q.Described resource answers
        ((outcome ((q.job resource).carryOut env p false) r).map fun _ => ()) := by
  have usual : (q.job resource).Usual := .metadata _ _ _ _ _
  obtain ⟨answers, hanswered, hends⟩ := usual.exists_ends env p false r
  refine ⟨answers, hanswered, ?_⟩
  -- the only message among the answers is the one of the job
  have hcalls := hanswered.calls_eq
  rw [Job.calls_carryOut (accept_job hrecipient hresource)] at hcalls
  have hcall := List.append_cancel_left hcalls
  have hasks := asks_callAt (q := q) hresource env (.text "") r.asked r.drawn
  have hexpected :=
    usual.service.expected_callAt usual.properties env (.text "") r.asked r.drawn
  generalize (q.job resource).service.callAt env (q.job resource).descriptor (.text "") r.asked
    r.drawn = sent at hcall hasks hexpected
  generalize outcome ((q.job resource).carryOut env p false) r = result at hends ⊢
  cases hends with
  | refused flaw => cases hcall
  | unsent asks =>
    cases hcall
    exact .unsent hasks
  | unexpected asks kind =>
    cases hcall
    rw [hexpected] at kind
    exact .unexpected hasks kind
  | handed asks kind saving =>
    cases hcall
    rw [hexpected] at kind
    cases saving with
    | ok _ => exact .stored hasks kind
    | error cause =>
      cases hown : cause.isStoreFailure with
      | true =>
        rw [Job.stored_raised hown]
        exact .unsaved hasks kind hown
      | false =>
        rw [Job.stored_foreign hown]
        exact .foreign hasks kind hown

/-! ## Lists of resources -/

variable (q) in
/-- All of these were described and stored, one block of answers for each. -/
def AllDescribed (resources : List String) (blocks : List (List Answer)) : Prop :=
  List.Forall₂ (fun resource block => q.Described resource block (.ok ())) resources blocks

variable (q) in
/-- What a list comes to: all its resources were described, or all before the first that failed, and
nothing was done for those after it. -/
inductive Course (resources : List String) : List Answer → Except Error Unit → Prop
  | complete {blocks : List (List Answer)} (all : q.AllDescribed resources blocks) :
      Course resources blocks.flatten (.ok ())
  | halted {earlier rest : List String} {resource : String} {blocks : List (List Answer)}
      {last : List Answer} {err : Error} (split : resources = earlier ++ resource :: rest)
      (all : q.AllDescribed earlier blocks) (failed : q.Described resource last (.error err)) :
      Course resources (blocks.flatten ++ last) (.error err)

theorem Course.cons {rest : List String} {more : List Answer} {result : Except Error Unit}
    (first : q.Described resource answers (.ok ())) (h : q.Course rest more result) :
    q.Course (resource :: rest) (answers ++ more) result := by
  cases h with
  | @complete blocks all =>
    have hall : q.AllDescribed (resource :: rest) (answers :: blocks) := .cons first all
    exact .complete hall
  | @halted earlier later name blocks last err split all failed =>
    have hall : q.AllDescribed (resource :: earlier) (answers :: blocks) := .cons first all
    rw [← List.append_assoc]
    exact .halted (congrArg (resource :: ·) split) hall failed

/-- **Every list of resources has a course.** -/
theorem exists_course (hrecipient : q.recipient ≠ "") (env : Surroundings σ) (p : Persistence σ)
    {resources : List String} (hresources : ∀ resource ∈ resources, resource ≠ "") :
    ∀ r, ∃ answers,
      Answered env.transport p r (after (Job.carryOutAll env p false (resources.map q.job)) r)
        answers ∧
      q.Course resources answers
        ((outcome (Job.carryOutAll env p false (resources.map q.job)) r).map fun _ => ()) := by
  induction resources with
  | nil => exact fun r => ⟨[], .refl r, .complete .nil⟩
  | cons resource rest ih =>
    intro r
    obtain ⟨hresource, hrest⟩ := List.forall_mem_cons.1 hresources
    obtain ⟨answers, hanswered, hdescribed⟩ := exists_described hrecipient hresource env p r
    unfold after at hanswered
    unfold outcome at hdescribed
    unfold outcome after
    rw [List.map_cons]
    cases hfirst : perform ((q.job resource).carryOut env p false) r with
    | mk result r' =>
      rw [hfirst] at hanswered hdescribed
      cases result with
      | error err =>
        -- nothing is done for the resources behind this one
        have hsplit : resource :: rest = [] ++ resource :: rest := rfl
        rw [Job.carryOutAll, perform_bind_error hfirst]
        exact ⟨answers, hanswered, .halted hsplit .nil hdescribed⟩
      | ok failure =>
        obtain ⟨more, hmore, hcourse⟩ := ih hrest r'
        rw [Job.perform_carryOutAll_ok hfirst]
        refine ⟨answers ++ more, hanswered.trans hmore, ?_⟩
        have hcons := Course.cons hdescribed hcourse
        cases houtcome : outcome (Job.carryOutAll env p false (rest.map q.job)) r' with
        | error err =>
          rw [houtcome] at hcons
          exact hcons
        | ok failures =>
          rw [houtcome] at hcons
          exact hcons

/-! ## Success -/

/-- The exchange brought a description, or the save went well. -/
def Succeeded : Answer → Prop
  | .sent _ (.ok reply) => IsDescription reply
  | .saved _ (.ok _) => True
  | .sent _ (.error _) | .saved _ (.error _) => False

theorem Described.succeeded_iff {result : Except Error Unit}
    (h : q.Described resource answers result) :
    (∀ a ∈ answers, Succeeded a) ↔ result = .ok () := by
  cases h with
  | stored asks kind => simp [Succeeded, kind]
  | unsent asks => simp [Succeeded]
  | unexpected asks kind => simp [Succeeded, kind]
  | unsaved asks kind own => simp [Succeeded]
  | foreign asks kind own => simp [Succeeded]

theorem AllDescribed.succeeded {resources : List String} {blocks : List (List Answer)}
    (h : q.AllDescribed resources blocks) : ∀ a ∈ blocks.flatten, Succeeded a := by
  induction h with
  | nil => exact fun a ha => absurd ha List.not_mem_nil
  | cons first others ih =>
    rw [List.flatten_cons]
    exact List.forall_mem_append.2 ⟨first.succeeded_iff.2 rfl, ih⟩

theorem Course.succeeded_iff {resources : List String} {result : Except Error Unit}
    (h : q.Course resources answers result) :
    (∀ a ∈ answers, Succeeded a) ↔ result = .ok () := by
  cases h with
  | complete all => exact ⟨fun _ => rfl, fun _ => all.succeeded⟩
  | halted split all failed =>
    rw [List.forall_mem_append, failed.succeeded_iff]
    exact ⟨And.right, fun h => ⟨all.succeeded, h⟩⟩

end Survey

end Download

/-- A peer that answers every message with a description. -/
def Transport.describing : Transport Nat where
  name := "describing"
  send _ world := ⟨.ok ⟨.ofPairs [("@type", MessageKind.descriptionResponse.tag)],
    .text "description"⟩, [], world⟩
  close := none

/-- A connector with that peer, whose disk has room for so many descriptions. -/
def Engine.withDescribingPeer (room : Nat) : Engine Nat where
  identity := .settled "https://consumer" "4.2.7" fun _ => "token"
  transport := .describing
  uuidAt n := ⟨BitVec.ofNat 128 n⟩
  clock _ := ⟨⟨2026, 5, 4, by decide⟩, .midnight, .fixed .utc⟩
  persistence := .inMemory fun _ saved =>
    if saved < room then (none, saved + 1) else (some diskFull, saved)
  agreements := .inMemory
  depth := Service.defaultDepth
  policy := .abort
  confirms := true
  examiner := .strict

/-! ## The engine's download -/

namespace Engine

open Download

/-- The descriptions that this engine asks for in one download. -/
def survey (e : Engine σ) (recipient : String) (artifacts : List String) (autoDownload : Bool) :
    Survey :=
  ⟨e.depth, recipient, artifacts, autoDownload⟩

/-- A download announces itself and then carries out its line of jobs. -/
theorem perform_downloadMetadata (e : Engine σ) (recipient : String)
    (resources artifacts : List String) (autoDownload : Bool) (r : Run σ) :
    let line := Job.carryOutAll e.toSurroundings e.persistence false
      (resources.map (e.survey recipient artifacts autoDownload).job)
    ∃ n : Note,
      perform (e.downloadMetadata recipient resources artifacts autoDownload) r =
        ((outcome line (r.extended (Event.ofNotes .metadata [n]))).map fun _ => (),
          after line (r.extended (Event.ofNotes .metadata [n]))) := by
  intro line
  refine ⟨(.info, "Downloading metadata for " ++ Decimal.ofNat resources.length ++
    " resource(s) from " ++ recipient), ?_⟩
  rw [downloadMetadata, perform_bind_ok (perform_note _ _ _ _), descriptions, metadata_eq]
  exact perform_bind_pure line (fun _ => ()) _

/-- **The course of a download of descriptions.** Whatever the transport and the store answer, a
download from a peer with a name, of resources with names, goes through the list in its order. Its
requests and saves are those of the course that its answers give, it ends as this course has it, and
it returns exactly if every exchange brought a description and every save went well. -/
theorem downloadMetadata_course (e : Engine σ) {recipient : String} (hrecipient : recipient ≠ "")
    {resources : List String} (hresources : ∀ resource ∈ resources, resource ≠ "")
    (artifacts : List String) (autoDownload : Bool) (r : Run σ) :
    let download := e.downloadMetadata recipient resources artifacts autoDownload
    ∃ answers,
      Answered e.transport e.persistence r (after download r) answers ∧
      (after download r).traffic = r.traffic ++ answers.map Answer.event ∧
      (e.survey recipient artifacts autoDownload).Course resources answers (outcome download r) ∧
      (outcome download r = .ok () ↔ ∀ a ∈ answers, Survey.Succeeded a) := by
  intro download
  have hpeer : (e.survey recipient artifacts autoDownload).recipient ≠ "" := hrecipient
  obtain ⟨n, hperform⟩ := perform_downloadMetadata e recipient resources artifacts autoDownload r
  obtain ⟨answers, hanswered, hcourse⟩ := Survey.exists_course hpeer e.toSurroundings e.persistence
    hresources (r.extended (Event.ofNotes .metadata [n]))
  have hheard : Answered e.transport e.persistence r (after download r) ([] ++ answers) := by
    rw [after, hperform]
    exact ((Answered.refl r).extended _ _).trans hanswered
  have hended : (e.survey recipient artifacts autoDownload).Course resources answers
      (outcome download r) := by
    rw [outcome, hperform]
    exact hcourse
  exact ⟨answers, hheard, hheard.traffic_eq, hended, hended.succeeded_iff.symm⟩

/-- With room for one description, a resource that is asked for twice is stored once, and the
resource behind it is not asked for. -/
theorem downloadMetadata_course_of_smallDisk :
    let e := withDescribingPeer 1
    let download := e.downloadMetadata "https://peer" ["urn:x", "urn:x", "urn:y"] ["urn:a"] true
    ∃ answers,
      (after download (.start 0 .empty)).traffic = answers.map Answer.event ∧
      answers.length = 4 ∧
      (e.survey "https://peer" ["urn:a"] true).Course ["urn:x", "urn:x", "urn:y"] answers
        (.error (.unsaved ("Could not save metadata for urn:x: " ++ diskFull.message)
          diskFull)) := by
  intro e download
  obtain ⟨answers, -, htraffic, hcourse, -⟩ := downloadMetadata_course e
    (show "https://peer" ≠ "" by decide)
    (show ∀ resource ∈ ["urn:x", "urn:x", "urn:y"], resource ≠ "" by decide) ["urn:a"] true
    (.start 0 .empty)
  have houtcome : outcome download (.start 0 .empty) =
      .error (.unsaved ("Could not save metadata for urn:x: " ++ diskFull.message) diskFull) := by
    decide +kernel
  have hlength : (after download (.start 0 .empty)).traffic.length = 4 := by decide +kernel
  rw [houtcome] at hcourse
  refine ⟨answers, htraffic, ?_, hcourse⟩
  rw [← List.length_map (f := Answer.event), ← hlength]
  exact (congrArg List.length htraffic).symm

end Engine

end Dataspace
