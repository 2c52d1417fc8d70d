import Dataspace.Proofs.ArtifactDownload
import Dataspace.Proofs.Lines

/-!
# What is on the shelves

With the shelves of this library a download leaves there what it was sent, and nothing else:

* **`Shelves.filled`** — shelves after several replies, shelf by shelf. A reply without a payload is
  no data, and neither is a text with half of a character in it, for which there are no octets.
* **`Operation.delivered?`** — what an answer of the peer means for the shelves: a reply of the kind
  that was asked for belongs to the item that its message names.
* **`operation_fills`** — what an operation leaves, whether it returns or fails at some item.
* **`session_fills_shelves`** — the shelves after any session.

So not every payload that is delivered and not empty is on the shelves afterwards
(`session_fills_shelves_broken`).
-/

namespace Dataspace

open Exchange

variable {σ : Type}

/-! ## Filling shelves -/

/-- Puts values at the end of the lists of their names, one after another. -/
def Fields.appendAll {β : Type} (f : Fields (List β)) (pairs : List (String × β)) :
    Fields (List β) :=
  pairs.foldl (fun g (name, value) => g.append name value) f

/-- The four shelves. -/
inductive Shelf where
  | metadata
  | data
  | appData
  | appResources
deriving DecidableEq

namespace Save

def shelf : Save → Shelf
  | metadata _ _ _ _ => .metadata
  | data _ _ => .data
  | appData _ _ => .appData
  | appResource _ _ => .appResources

def description? : Save → Option (String × MetadataEntry)
  | metadata reply artifacts autoDownload recipient =>
    some (recipient, ⟨reply, artifacts, autoDownload⟩)
  | _ => none

def appDescription? : Save → Option (String × Response)
  | appResource reply recipient => some (recipient, reply)
  | _ => none

/-- The octets of a reply under a name, if there are any. -/
def octetsOf? (reply : Response) (name : String) : Option (String × Text.Octets) :=
  match reply.payload.wire with
  | .ok (b :: rest) => some (name, b :: rest)
  | .ok [] | .error _ => none

def datum? : Save → Option (String × Text.Octets)
  | data reply artifact => octetsOf? reply artifact
  | _ => none

def appDatum? : Save → Option (String × Text.Octets)
  | appData reply app => octetsOf? reply app
  | _ => none

end Save

namespace Shelves

/-- All shelves but perhaps one are the same. -/
structure SameBut (but : Option Shelf) (shelves shelves' : Shelves) : Prop where
  metadata : but ≠ some .metadata → shelves'.metadata = shelves.metadata
  data : but ≠ some .data → shelves'.data = shelves.data
  appData : but ≠ some .appData → shelves'.appData = shelves.appData
  appResources : but ≠ some .appResources → shelves'.appResources = shelves.appResources

/-- The shelves after these replies, in their order. -/
def filled (shelves : Shelves) (saves : List Save) : Shelves where
  metadata := shelves.metadata.appendAll (saves.filterMap Save.description?)
  data := shelves.data.putAll (saves.filterMap Save.datum?)
  appData := shelves.appData.putAll (saves.filterMap Save.appDatum?)
  appResources := shelves.appResources.appendAll (saves.filterMap Save.appDescription?)

@[simp] theorem filled_nil (shelves : Shelves) : shelves.filled [] = shelves := rfl

theorem filled_append (shelves : Shelves) (saves more : List Save) :
    shelves.filled (saves ++ more) = (shelves.filled saves).filled more := by
  simp only [filled, Fields.appendAll, Fields.putAll, List.filterMap_append, List.foldl_append]

theorem sameBut_filled_singleton (shelves : Shelves) (save : Save) :
    shelves.SameBut (some save.shelf) (shelves.filled [save]) := by
  cases save <;> constructor <;> intro h <;> first | rfl | exact absurd rfl h

theorem sameBut_filled {but : Option Shelf} {saves : List Save}
    (h : ∀ save ∈ saves, but = some save.shelf) :
    ∀ shelves : Shelves, shelves.SameBut but (shelves.filled saves) := by
  induction saves with
  | nil => exact fun _ => ⟨fun _ => rfl, fun _ => rfl, fun _ => rfl, fun _ => rfl⟩
  | cons save rest ih =>
    intro shelves
    obtain ⟨hsave, hrest⟩ := List.forall_mem_cons.1 h
    have hfirst := shelves.sameBut_filled_singleton save
    rw [← hsave] at hfirst
    have hothers := ih hrest (shelves.filled [save])
    rw [← filled_append, List.singleton_append] at hothers
    exact
      { metadata := fun hne => (hothers.metadata hne).trans (hfirst.metadata hne)
        data := fun hne => (hothers.data hne).trans (hfirst.data hne)
        appData := fun hne => (hothers.appData hne).trans (hfirst.appData hne)
        appResources := fun hne => (hothers.appResources hne).trans (hfirst.appResources hne) }

/-- A reply that the shelves take is on them, and one that they do not take leaves them as they
are. -/
theorem take_unhindered (save : Save) (world : σ) (shelves : Shelves) :
    (Persistence.unhindered.take save world shelves).world = (world, shelves.filled [save]) := by
  cases save with
  | metadata | appResource => rfl
  | data reply subject | appData reply subject =>
    simp only [Persistence.unhindered, Persistence.take, Shelves.save, payloadFor, filled,
      List.filterMap_cons, Save.description?, Save.datum?, Save.appDatum?, Save.appDescription?,
      Save.octetsOf?]
    cases reply.payload.wire with
    | error fault => rfl
    | ok octets => cases octets <;> rfl

/-- A payload without octets is nothing to keep, and what was kept before under the name stays
there. -/
theorem filled_of_none {reply : Response} {name : String} (h : Save.octetsOf? reply name = none)
    (shelves : Shelves) :
    shelves.filled [.data reply name] = shelves ∧
      shelves.filled [.appData reply name] = shelves := by
  constructor
  all_goals
    simp only [filled, List.filterMap_cons, Save.description?, Save.datum?, Save.appDatum?,
      Save.appDescription?, h]
    rfl

theorem octetsOf?_of_refused {reply : Response} {subject : String} {keep : Text.Octets → Shelves}
    {cause : Error} (h : (payloadFor reply subject).map keep = .error cause) :
    Save.octetsOf? reply subject = none := by
  unfold payloadFor at h
  unfold Save.octetsOf?
  cases hwire : reply.payload.wire with
  | error fault => rfl
  | ok octets =>
    cases octets with
    | nil => rfl
    | cons b rest =>
      rw [hwire] at h
      cases h

/-- The shelves refuse nothing else. -/
theorem filled_of_refused {save : Save} {world : σ} {shelves : Shelves} {cause : Error}
    (h : (Persistence.unhindered.take save world shelves).result = .error cause) (other : Shelves) :
    other.filled [save] = other := by
  have hsave : shelves.save save = .error cause := by
    simp only [Persistence.unhindered, Persistence.take] at h
    cases hsave : shelves.save save with
    | error err =>
      simp only [hsave, Except.error.injEq] at h
      rw [h]
    | ok shelves' =>
      simp only [hsave] at h
      cases h
  cases save with
  | metadata | appResource => cases hsave
  | data reply subject => exact (filled_of_none (octetsOf?_of_refused hsave) other).1
  | appData reply subject => exact (filled_of_none (octetsOf?_of_refused hsave) other).2

end Shelves

theorem shelves_heardAll (t : Transport σ) (events : List Event) :
    ∀ place, (heardAll t .unhindered place events).2.2 =
      place.2.filled ((heardAll t .unhindered place events).1.filterMap Answer.save?) := by
  induction events with
  | nil => exact fun _ => rfl
  | cons event rest ih =>
    intro place
    rw [heardAll, List.filterMap_append, Shelves.filled_append, ih]
    cases event with
    | sent | asked | drew | noted => rfl
    | saved s =>
      simp only [heard, Shelves.take_unhindered]
      rfl

/-- **The shelves hold what was handed to them**, whatever else happened. -/
theorem Answered.shelves_eq {t : Transport σ} {r r' : Run σ} {answers : List Answer}
    (h : Answered t .unhindered r r' answers) :
    r'.shelves = r.shelves.filled (answers.filterMap Answer.save?) := by
  obtain ⟨events, -, hheard⟩ := h
  have hplace := shelves_heardAll t events (r.world, r.shelves)
  rw [hheard] at hplace
  exact hplace

/-! ## Deliveries -/

namespace Operation

/-- The items that a download is about. -/
def items : Operation → List String
  | negotiate _ _ => []
  | downloadMetadata _ resources _ _ => resources
  | downloadAppResource _ app => [app]
  | downloadArtifacts _ artifacts _ => artifacts
  | downloadAppArtifact _ app => [app]

/-- What a reply about a subject is kept as. -/
def saveFor (reply : Response) (subject : Option String) : Operation → Option Save
  | negotiate _ _ => none
  | downloadMetadata recipient _ artifacts autoDownload =>
    some (.metadata reply artifacts autoDownload recipient)
  | downloadAppResource recipient _ => some (.appResource reply recipient)
  | downloadArtifacts _ _ _ => subject.map (.data reply)
  | downloadAppArtifact _ _ => subject.map (.appData reply)

/-- What an answer delivers: a reply of the kind that was asked for is kept for the item that the
message names. -/
def delivered? (op : Operation) : Answer → Option Save
  | .sent call (.ok reply) =>
    if reply.kind = call.expected then op.saveFor reply call.subject? else none
  | .sent _ (.error _) | .saved _ _ => none

def delivered (op : Operation) (answers : List Answer) : List Save :=
  answers.filterMap op.delivered?

/-- What the messages among these answers ask for. -/
def asked (answers : List Answer) : List (Option String) :=
  (answers.filterMap Answer.call?).map Call.subject?

/-- The shelf that an operation fills. -/
def shelf? : Operation → Option Shelf
  | negotiate _ _ => none
  | downloadMetadata _ _ _ _ => some .metadata
  | downloadAppResource _ _ => some .appResources
  | downloadArtifacts _ _ _ => some .data
  | downloadAppArtifact _ _ => some .appData

variable {op : Operation}

theorem delivered_append (answers more : List Answer) :
    op.delivered (answers ++ more) = op.delivered answers ++ op.delivered more :=
  List.filterMap_append

theorem asked_append (answers more : List Answer) :
    asked (answers ++ more) = asked answers ++ asked more := by
  rw [asked, List.filterMap_append, List.map_append]
  rfl

theorem exists_saveFor {answers : List Answer} {save : Save} (h : save ∈ op.delivered answers) :
    ∃ reply subject, op.saveFor reply subject = some save := by
  obtain ⟨a, -, ha⟩ := List.mem_filterMap.1 h
  cases a with
  | saved => cases ha
  | sent call result =>
    cases result with
    | error cause => cases ha
    | ok reply =>
      simp only [delivered?] at ha
      split at ha
      · exact ⟨_, _, ha⟩
      · cases ha

theorem shelf_of_saveFor {reply : Response} {subject : Option String} {save : Save}
    (h : op.saveFor reply subject = some save) : op.shelf? = some save.shelf := by
  cases op with
  | negotiate => cases h
  | downloadMetadata | downloadAppResource =>
    cases h
    rfl
  | downloadArtifacts | downloadAppArtifact =>
    obtain ⟨name, -, rfl⟩ := Option.map_eq_some_iff.1 h
    rfl

theorem delivered_negotiate (recipient : String) (request : Contract) (answers : List Answer) :
    (negotiate recipient request).delivered answers = [] := by
  refine List.eq_nil_iff_forall_not_mem.2 fun save hsave => ?_
  obtain ⟨reply, subject, hfor⟩ := exists_saveFor hsave
  cases hfor

/-- **What an operation delivers goes to its own shelf.** -/
theorem sameBut_filled_delivered (op : Operation) (shelves : Shelves) (answers : List Answer) :
    shelves.SameBut op.shelf? (shelves.filled (op.delivered answers)) := by
  refine Shelves.sameBut_filled (fun save hsave => ?_) shelves
  obtain ⟨reply, subject, hfor⟩ := exists_saveFor hsave
  exact shelf_of_saveFor hfor

end Operation

/-! ## What a line of jobs delivers -/

section Jobs

open Download

variable {op : Operation} {jobs : List Job} {j : Job} {records : Bool} {answers : List Answer}
  {failures : List (Option Error)} {result : Except Error (List (Option Error))}

/-- A job and an operation have the same in mind for a reply. -/
def Operation.Has (op : Operation) (j : Job) : Prop :=
  ∀ reply, op.saveFor reply j.descriptor.subject = some (j.errand.save reply)

theorem Engine.has_of_mem_jobs {e : Engine σ} {transferContract : String}
    (h : j ∈ e.jobs transferContract op) : op.Has j := by
  cases op with
  | negotiate => cases h
  | downloadMetadata | downloadArtifacts =>
    obtain ⟨item, -, rfl⟩ := List.mem_map.1 h
    exact fun _ => rfl
  | downloadAppResource | downloadAppArtifact =>
    cases List.mem_singleton.1 h
    exact fun _ => rfl

theorem Engine.subjects_jobs (e : Engine σ) (transferContract : String) (op : Operation) :
    (e.jobs transferContract op).map (fun j => j.descriptor.subject) = op.items.map some := by
  cases op with
  | negotiate | downloadAppResource | downloadAppArtifact => rfl
  | downloadMetadata | downloadArtifacts =>
    rw [Engine.jobs, List.map_map]
    rfl

/-- What a job hands to the store is what the operation was delivered, and it is about the item of
the job if anything was asked for. -/
theorem Download.Job.Ends.delivered {ended : Except Error (Option Error)}
    (h : j.Ends records answers ended) (hj : op.Has j) :
    answers.filterMap Answer.save? = op.delivered answers := by
  cases h with
  | refused | unsent => rfl
  | unexpected asks kind =>
    simp only [Operation.delivered, List.filterMap_cons, Operation.delivered?, if_neg kind]
    rfl
  | handed asks kind saving =>
    simp only [Operation.delivered, List.filterMap_cons, Operation.delivered?, if_pos kind,
      asks.subject, hj _]
    rfl

theorem Download.Job.Ends.asked {ended : Except Error (Option Error)}
    (h : j.Ends records answers ended) : Operation.asked answers <+: [j.descriptor.subject] := by
  cases h with
  | refused => exact List.nil_prefix
  | unsent asks | unexpected asks | handed asks =>
    rw [← asks.subject]
    exact List.prefix_rfl

/-- A job that has returned was delivered its item. -/
theorem Download.Job.Ends.of_returned {failure : Option Error}
    (h : j.Ends records answers (.ok failure)) (hj : op.Has j) :
    Operation.asked answers = [j.descriptor.subject] ∧ (op.delivered answers).length = 1 := by
  generalize hended : Except.ok failure = ended at h
  cases h with
  | refused | unsent | unexpected => cases hended
  | handed asks kind saving =>
    refine ⟨congrArg (fun subject => [subject]) asks.subject, ?_⟩
    have hends : j.Ends records _ _ := .handed asks kind saving
    rw [← hends.delivered hj]
    rfl

theorem Download.Job.Returned.delivered (h : Job.Returned records jobs answers failures)
    (hjobs : ∀ j ∈ jobs, op.Has j) :
    answers.filterMap Answer.save? = op.delivered answers ∧
      Operation.asked answers = jobs.map (fun j => j.descriptor.subject) ∧
      (op.delivered answers).length = jobs.length := by
  induction h with
  | nil => exact ⟨rfl, rfl, rfl⟩
  | cons first others ih =>
    obtain ⟨hj, hrest⟩ := List.forall_mem_cons.1 hjobs
    obtain ⟨hsaves, hasked, hcount⟩ := ih hrest
    obtain ⟨hasked', hcount'⟩ := first.of_returned hj
    refine ⟨?_, ?_, ?_⟩
    · rw [List.filterMap_append, Operation.delivered_append, first.delivered hj, hsaves]
    · rw [Operation.asked_append, hasked', hasked]
      rfl
    · rw [Operation.delivered_append, List.length_append, hcount', hcount, List.length_cons,
        Nat.add_comm]

/-- A job that ends its download has put nothing onto the shelves. -/
theorem Download.Job.Ends.filled_of_failed {err : Error} {t : Transport σ} {r r' : Run σ}
    {heard : List Answer} (h : j.Ends records answers (.error err))
    (hanswered : Answered t .unhindered r r' heard) (hheard : ∀ a ∈ answers, a ∈ heard)
    (shelves : Shelves) : shelves.filled (answers.filterMap Answer.save?) = shelves := by
  generalize hended : Except.error err = ended at h
  cases h with
  | refused | unsent | unexpected => exact shelves.filled_nil
  | handed asks kind saving =>
    cases saving with
    | ok _ => cases hended
    | error cause =>
      obtain ⟨world, found, htake⟩ := hanswered.exists_take
        (hheard _ (List.mem_cons_of_mem _ List.mem_cons_self))
      exact Shelves.filled_of_refused htake shelves

/-- What an operation leaves on the shelves, given the answers that it has heard. It asks for its
items in their order, in one message each, and every reply of the right kind is kept for the item
that its message names. If it fails, this is what the items before the last message have brought. -/
structure Operation.Fills (op : Operation) (shelves shelves' : Shelves) (answers : List Answer)
    (result : Except Error Product) : Prop where
  filled : shelves' = shelves.filled (op.delivered answers)
  others : shelves.SameBut op.shelf? shelves'
  returned : op.IsDownload → ∀ product, result = .ok product →
    asked answers = op.items.map some ∧ (op.delivered answers).length = op.items.length
  failed : op.IsDownload → ∀ err, result = .error err → ∃ k before last, answers = before ++ last ∧
    asked before = (op.items.take k).map some ∧
    (op.delivered before).length = (op.items.take k).length ∧
    asked last <+: ((op.items.drop k).take 1).map some ∧
    shelves' = shelves.filled (op.delivered before)

/-- A line of jobs fills the shelves in this way. -/
theorem Download.Job.Course.fills {t : Transport σ} {r r' : Run σ}
    (h : Job.Course records jobs answers result) (hanswered : Answered t .unhindered r r' answers)
    (hhas : ∀ j ∈ jobs, op.Has j)
    (hsubjects : jobs.map (fun j => j.descriptor.subject) = op.items.map some) :
    op.Fills r.shelves r'.shelves answers (result.map op.product) := by
  have hshelves := hanswered.shelves_eq
  cases h with
  | @complete _ failures returned =>
    obtain ⟨hsaves, hasked, hcount⟩ := returned.delivered hhas
    rw [hsaves] at hshelves
    rw [hsubjects] at hasked
    have hlength : jobs.length = op.items.length := by
      have hlengths := congrArg List.length hsubjects
      rwa [List.length_map, List.length_map] at hlengths
    exact
      { filled := hshelves
        others := hshelves ▸ op.sameBut_filled_delivered r.shelves answers
        returned := fun _ _ _ => ⟨hasked, hcount.trans hlength⟩
        failed := fun _ _ h => by cases h }
  | @halted earlier j rest before last failures err jobs_eq returned ends =>
    rw [jobs_eq] at hhas hsubjects
    obtain ⟨hsaves, hasked, hcount⟩ :=
      returned.delivered fun j hj => hhas j (List.mem_append_left _ hj)
    have hlast := ends.delivered (hhas j (List.mem_append_right _ List.mem_cons_self))
    have hnothing := ends.filled_of_failed hanswered (fun a ha => List.mem_append_right _ ha)
      (r.shelves.filled (op.delivered before))
    rw [List.filterMap_append, Shelves.filled_append, hsaves] at hshelves
    -- the items before the last message are those of the jobs that have returned
    have htake : earlier.map (fun j => j.descriptor.subject) =
        (op.items.take earlier.length).map some := by
      rw [List.map_take, ← hsubjects, List.map_append]
      exact (List.take_left' (List.length_map _)).symm
    have hnext : [j.descriptor.subject] = ((op.items.drop earlier.length).take 1).map some := by
      rw [List.map_take, List.map_drop, ← hsubjects, List.map_append,
        List.drop_left' (List.length_map _)]
      rfl
    have hlength : earlier.length = (op.items.take earlier.length).length := by
      have hlengths := congrArg List.length htake
      rwa [List.length_map, List.length_map] at hlengths
    have hfilled : r'.shelves = r.shelves.filled (op.delivered (before ++ last)) := by
      rw [hshelves, hlast, Operation.delivered_append, Shelves.filled_append]
    exact
      { filled := hfilled
        others := hfilled ▸ op.sameBut_filled_delivered r.shelves _
        returned := fun _ _ h => by cases h
        failed := fun _ _ _ => ⟨earlier.length, before, last, rfl, hasked.trans htake,
          hcount.trans hlength, hnext ▸ ends.asked, hshelves.trans hnothing⟩ }

end Jobs

/-! ## Operations and sessions -/

namespace Engine

/-- **Every operation fills its own shelf in this way**, and a negotiation none. -/
theorem operation_fills (e : Engine σ) (he : e.persistence = .unhindered) (op : Operation)
    (r : Run σ) :
    op.Fills r.shelves (after (e.operate op) r).shelves (e.answers op r)
      (outcome (e.operate op) r) := by
  by_cases hop : op.IsDownload
  · have hanswered := answered_operate e op r
    rw [he] at hanswered
    rcases download_course e hop r with
      ⟨_, err, -, herr, hnone⟩ | ⟨transferContract, result, hresult, hcourse⟩
    · -- nobody was asked for anything
      rw [hnone] at hanswered ⊢
      have hshelves := hanswered.shelves_eq
      exact
        { filled := hshelves
          others := hshelves ▸ op.sameBut_filled_delivered r.shelves []
          returned := fun _ product h => by
            rw [herr] at h
            cases h
          failed := fun _ _ _ => ⟨0, [], [], rfl, rfl, rfl, List.nil_prefix, hshelves⟩ }
    · rw [hresult]
      exact hcourse.fills hanswered (fun _ => has_of_mem_jobs)
        (e.subjects_jobs transferContract op)
  · cases op with
    | negotiate recipient request =>
      have hkept := (he ▸ answered_operate e (.negotiate recipient request) r).shelves_eq
      rw [saves_negotiate, Shelves.filled_nil] at hkept
      rw [hkept]
      exact
        { filled := by
            rw [Operation.delivered_negotiate]
            rfl
          others := ⟨fun _ => rfl, fun _ => rfl, fun _ => rfl, fun _ => rfl⟩
          returned := fun hop => hop.elim
          failed := fun hop => hop.elim }
    | downloadMetadata | downloadAppResource | downloadArtifacts | downloadAppArtifact =>
      exact absurd trivial hop

/-- What the operations of a session deliver, in their order. -/
def deliveries (e : Engine σ) : List Operation → Run σ → List Save
  | [], _ => []
  | op :: rest, r => op.delivered (e.answers op r) ++ e.deliveries rest (after (e.operate op) r)

/-- **The shelves after a session** hold what was there and then what the operations delivered, in
their order, whatever they ended with; a reply with an empty payload, or with a text that has no
octets, leaves the shelves of data as they are. -/
theorem session_fills_shelves (e : Engine σ) (he : e.persistence = .unhindered) :
    (∀ ops r, (e.session ops r).shelves = r.shelves.filled (e.deliveries ops r)) ∧
    (∀ (op : Operation) (r : Run σ), op.Fills r.shelves (after (e.operate op) r).shelves
      (e.answers op r) (outcome (e.operate op) r)) ∧
    ∀ (reply : Response) (name : String) (shelves : Shelves),
      (reply.payload.wire = .ok [] ∨ ∃ fault, reply.payload.wire = .error fault) →
        shelves.filled [.data reply name] = shelves ∧
          shelves.filled [.appData reply name] = shelves := by
  refine ⟨fun ops => ?_, operation_fills e he, fun reply name shelves hnothing =>
    Shelves.filled_of_none ?_ shelves⟩
  · induction ops with
    | nil => exact fun r => r.shelves.filled_nil.symm
    | cons op rest ih =>
      intro r
      rw [session, ih, (operation_fills e he op r).filled, deliveries, Shelves.filled_append]
  · rcases hnothing with hempty | ⟨fault, hfault⟩
    · rw [Save.octetsOf?, hempty]
    · rw [Save.octetsOf?, hfault]

/-- A peer that has a reply for everything, but no data for one artifact. -/
def peerWithoutData : Transport Unit where
  name := "peer"
  send call _ :=
    ⟨.ok ⟨.ofPairs [("@type", call.expected.getD "")],
      .text (if call.subject? = some "urn:void" then "" else "data")⟩, [], ()⟩
  close := none

/-- The artifact without data ends the second download; what came before it stays, and nothing comes
after it. -/
theorem session_fills_shelves_of_peerWithoutData :
    let e : Engine Unit := { withServingPeer (.plain "urn:a") .abort with
      transport := peerWithoutData, persistence := .unhindered }
    let ops : List Operation := [.downloadMetadata "https://peer" ["urn:r"] ["urn:x"] true,
      .downloadArtifacts "https://peer" ["urn:x", "urn:void", "urn:y"] "agr",
      .downloadAppArtifact "https://peer" "urn:app"]
    let shelves := (e.session ops .entitled).shelves
    shelves.metadata.entries.map Prod.fst = ["https://peer"] ∧
      shelves.data.entries.map Prod.fst = ["urn:x"] ∧
      shelves.appData.entries.map Prod.fst = ["urn:app"] ∧ shelves.appResources = .empty := by
  intro e ops shelves
  have hshelves := (session_fills_shelves e rfl).1 ops .entitled
  refine ⟨?_, ?_, ?_, ?_⟩
  all_goals
    simp only [shelves, hshelves]
    decide +kernel

/-- Half of a character was asked for and delivered, and it is not on the shelves. -/
theorem session_fills_shelves_broken :
    let op := Operation.downloadArtifacts "https://peer" ["urn:x"] "agr"
    let reply : Response :=
      ⟨.ofPairs [("@type", MessageKind.artifactResponse.tag)], .broken ⟨[0xD800], rfl, rfl⟩⟩
    withBrokenPeer.persistence = .unhindered ∧
      op.delivered (withBrokenPeer.answers op .entitled) = [.data reply "urn:x"] ∧
      (withBrokenPeer.session [op] .entitled).shelves = .empty :=
  ⟨rfl, by decide +kernel, by decide +kernel⟩

end Engine

end Dataspace
