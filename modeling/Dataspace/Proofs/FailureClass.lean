import Dataspace.Proofs.Accounts
import Dataspace.Proofs.ArtifactDownload
import Dataspace.Proofs.Telling

/-!
# The class of a failure tells where it happened

A connection and a disk both fail with a failure of the system, and a peer as well as a store may
find that something is unknown. The caller of an operation has to tell them apart: a failure to
store can be tried again, an outage of the peer is another matter, and a reply of another kind is a
decision of the peer. So each of them is reported in a class of its own.

This takes a store that fails in ways of its own only. The shelves of this library are one, unless
they are to keep a text with half of a character in it: what they raise for that belongs to no class
of the connector (`class_of_failure_broken`).

* **`told_operate`** — every operation tells where it failed.
* **`Persistence.failsAsStore_unhindered`** — what the shelves of this library keep, or fail to keep
  as a store does.
* **`class_of_failure`** — what the caller can conclude from the class, and from the cause.
-/

namespace Dataspace

open Exchange

variable {σ : Type}

/-! ## Downloads -/

/-- All failures to store among these answers are the store's own. -/
def Answer.OfStore (answers : List Answer) : Prop :=
  ∀ save cause, Answer.saved save (.error cause) ∈ answers → cause.isStoreFailure = true

/-- If a store fails to keep this, it does so in a way of its own. -/
def Persistence.FailsAsStore (p : Persistence σ) (save : Save) : Prop :=
  ∀ world shelves cause, (p.take save world shelves).result = .error cause →
    cause.isStoreFailure = true

section Jobs

open Download

variable {jobs : List Job} {j : Job} {recipient : String} {records : Bool}
  {answers : List Answer} {failures : List (Option Error)}
  {result : Except Error (List (Option Error))}

theorem Answer.ofStore_append {more : List Answer} :
    OfStore (answers ++ more) ↔ OfStore answers ∧ OfStore more := by
  simp only [OfStore, List.mem_append, or_imp, forall_and]

/-- So an operation accounts for all of them. -/
theorem Answer.OfStore.allCaught_eq (h : OfStore answers) :
    allCaught answers = answers.filterMap unsaved? := by
  refine List.filterMap_congr fun a ha => ?_
  cases a with
  | sent call result => rfl
  | saved save result =>
    cases result with
    | ok _ => rfl
    | error cause => exact if_pos (h save cause ha)

theorem Answered.ofStore {t : Transport σ} {p : Persistence σ} {r r' : Run σ}
    (h : Answered t p r r' answers)
    (hp : ∀ save ∈ answers.filterMap Answer.save?, p.FailsAsStore save) :
    Answer.OfStore answers := by
  intro save cause ha
  obtain ⟨world, shelves, htake⟩ := h.exists_take ha
  exact hp save (List.mem_filterMap.2 ⟨_, ha, rfl⟩) world shelves cause htake

/-- One job goes on after answers that pass, and ends with what the first other one raises. -/
theorem Download.Job.Ends.told {ended : Except Error (Option Error)}
    (h : j.Ends records answers ended) (hstore : Answer.OfStore answers)
    (hrecipient : j.descriptor.recipient = recipient) :
    Told recipient records (fun _ _ => True) answers ended := by
  subst hrecipient
  cases h with
  | refused flaw => exact .refused (List.forall_mem_nil _) rfl
  | @unsent call cause asks =>
    have hraises : (Answer.sent call (.error cause)).Raises j.descriptor.recipient records
        (j.service.sendError j.descriptor.recipient cause) := .unsent j.service asks.recipient
    exact .raised [] _ rfl (List.forall_mem_nil _) hraises
  | unexpected asks kind =>
    exact .raised [] _ rfl (List.forall_mem_nil _) (.unexpected j.service kind)
  | @handed call reply asks kind saving =>
    have hreplied : (Answer.sent call (.ok reply)).Passes records := .replied kind
    cases saving with
    | ok _ =>
      refine .returned (List.forall_mem_cons.2 ⟨hreplied, List.forall_mem_singleton.2 ?_⟩) trivial
      exact .stored
    | error cause =>
      have hfailure := hstore _ cause (List.mem_cons_of_mem _ List.mem_cons_self)
      cases records with
      | false =>
        rw [Job.stored_raised hfailure]
        exact .raised [_] _ rfl (List.forall_mem_singleton.2 hreplied) (.unsaved _ rfl)
      | true =>
        rw [Job.stored_recorded hfailure]
        exact .returned (List.forall_mem_cons.2
          ⟨hreplied, List.forall_mem_singleton.2 (.recorded rfl)⟩) trivial

/-- Jobs that have returned have heard only answers that pass. -/
theorem Download.Job.Returned.passes (h : Job.Returned records jobs answers failures)
    (hstore : Answer.OfStore answers) : ∀ a ∈ answers, a.Passes records := by
  induction h with
  | nil => exact List.forall_mem_nil _
  | cons first others ih =>
    obtain ⟨hfirst, hothers⟩ := Answer.ofStore_append.1 hstore
    cases first.told hfirst rfl with
    | returned passes _ => exact List.forall_mem_append.2 ⟨passes, ih hothers⟩

/-- A failure that is not the store's own ends the job as it is. -/
theorem Download.Job.Ends.error_of_foreign {ended : Except Error (Option Error)}
    (h : j.Ends records answers ended) {save : Save} {cause : Error}
    (ha : .saved save (.error cause) ∈ answers) (hforeign : cause.isStoreFailure = false) :
    ended = .error cause := by
  cases h with
  | refused => cases ha
  | unsent | unexpected => cases List.mem_singleton.1 ha
  | handed =>
    rcases List.mem_cons.1 ha with hsent | hsaved
    · cases hsent
    · cases List.mem_singleton.1 hsaved
      exact Job.stored_foreign hforeign

theorem Download.Job.Returned.ofStore (h : Job.Returned records jobs answers failures) :
    Answer.OfStore answers := by
  induction h with
  | nil => exact fun _ _ ha => nomatch ha
  | cons first others ih =>
    refine Answer.ofStore_append.2 ⟨fun save cause ha => ?_, ih⟩
    by_contra hforeign
    cases first.error_of_foreign ha (Bool.eq_false_iff.2 hforeign)

/-- So it ends the line, for the jobs before have returned. -/
theorem Download.Job.Course.error_of_foreign (h : Job.Course records jobs answers result)
    {save : Save} {cause : Error} (ha : .saved save (.error cause) ∈ answers)
    (hforeign : cause.isStoreFailure = false) : result = .error cause := by
  have hnone : ∀ {earlier answers failures}, Job.Returned records earlier answers failures →
      .saved save (.error cause) ∉ answers := fun returned hmem => by
    rw [returned.ofStore save cause hmem] at hforeign
    cases hforeign
  cases h with
  | complete returned => exact absurd ha (hnone returned)
  | halted _ returned ends =>
    cases ends.error_of_foreign ((List.mem_append.1 ha).resolve_left (hnone returned)) hforeign
    rfl

/-- **A line of jobs tells where it failed.** -/
theorem Download.Job.Course.told (h : Job.Course records jobs answers result)
    (hstore : Answer.OfStore answers)
    (hrecipient : ∀ j ∈ jobs, j.descriptor.recipient = recipient) :
    Told recipient records (fun _ _ => True) answers result := by
  cases h with
  | complete returned => exact .returned (returned.passes hstore) trivial
  | @halted earlier j rest before last _ err jobs_eq returned ends =>
    obtain ⟨hbefore, hlast⟩ := Answer.ofStore_append.1 hstore
    have hj : j ∈ jobs := jobs_eq ▸ List.mem_append_right _ List.mem_cons_self
    exact Told.behind (returned.passes hbefore) ((ends.told hlast (hrecipient j hj)).error _)

end Jobs

/-! ## Operations -/

/-- The failures in the results are those of the saves, each with its cause, in their order. -/
def Record (answers : List Answer) (results : List ArtifactResult) : Prop :=
  (results.filterMap ArtifactResult.failure).map (fun err => (err.family, err.cause)) =
    (answers.filterMap Answer.unsaved?).map fun cause => (Family.persistence, some cause)

/-- What the product of an operation says of the replies that were not stored. -/
def Product.Records (answers : List Answer) : Product → Prop
  | .artifacts results => Record answers results
  | .agreement _ | .nothing => True

/-- An operation that accounts for the failures of the store says what became of every reply. -/
theorem Accounts.records {records : Bool} {answers : List Answer} {product : Product}
    (h : Accounts records answers (.ok product)) (hstore : Answer.OfStore answers) :
    product.Records answers := by
  cases product with
  | agreement | nothing => trivial
  | artifacts results =>
    have hstand := (h.recorded _ rfl).1
    rw [hstore.allCaught_eq] at hstand
    exact Error.map_of_standsFor hstand

/-- Agreements that are looked up elsewhere are known or not known there. -/
def AgreementService.FailsAsLookup : AgreementService → Prop
  | .inMemory => True
  | .lookup find => ∀ id err, find id = .error err → err.family = .notFound

theorem AgreementService.FailsAsLookup.isOwn {service : AgreementService}
    (h : service.FailsAsLookup) {id : String} {r : Run σ} {err : Error}
    (herr : outcome (findAgreement service id) r = .error err) : err.family.isOwn = true := by
  cases service with
  | inMemory =>
    rw [outcome, perform_findAgreement] at herr
    unfold AgreementBook.find at herr
    split at herr
    · cases herr
    · cases herr
      rfl
  | lookup find =>
    unfold outcome findAgreement at herr
    rw [perform_ofResult] at herr
    rw [h id err herr]
    rfl

namespace Engine

variable {e : Engine σ} {r : Run σ}

def scene (e : Engine σ) (op : Operation) : Scene σ :=
  ⟨e.transport, e.persistence, op.recipient, op.records e.policy⟩

theorem tells_agreed {c : Scene σ} (n : Negotiation) :
    c.Tells (agreed n) (fun _ _ => True) r := by
  unfold agreed
  cases n.agreement with
  | none => exact Scene.Tells.throw rfl
  | some agreement => exact Scene.Tells.pure trivial

theorem tells_negotiate (recipient : String) (request : Contract) :
    (e.scene (.negotiate recipient request)).Tells (e.negotiate recipient request)
      (fun _ _ => True) r := by
  refine Scene.Tells.bind (Scene.Tells.run rfl e.confirms request) fun n _ _ _ => ?_
  refine Scene.Tells.bind (tells_agreed n) fun agreement _ _ _ => ?_
  cases e.agreements with
  | inMemory =>
    exact Scene.Tells.bind (Scene.Tells.storeAgreement _ _)
      fun _ _ _ _ => Scene.Tells.pure trivial
  | lookup find => exact Scene.Tells.note_bind fun _ => Scene.Tells.pure trivial

/-- A download talks to one peer. -/
theorem recipient_of_mem_jobs {transferContract : String} {op : Operation} {j : Download.Job}
    (h : j ∈ e.jobs transferContract op) : j.descriptor.recipient = op.recipient := by
  cases op with
  | negotiate => cases h
  | downloadMetadata | downloadArtifacts =>
    obtain ⟨item, -, rfl⟩ := List.mem_map.1 h
    rfl
  | downloadAppResource | downloadAppArtifact =>
    cases List.mem_singleton.1 h
    rfl

/-- **Every operation tells where it failed.** -/
theorem told_operate (hlookup : e.agreements.FailsAsLookup) (op : Operation) (r : Run σ)
    (hstore : ∀ save ∈ (e.answers op r).filterMap Answer.save?, e.persistence.FailsAsStore save) :
    Told op.recipient (op.records e.policy) Product.Records (e.answers op r)
      (outcome (e.operate op) r) := by
  have hanswers : Answer.OfStore (e.answers op r) := (answered_operate e op r).ofStore hstore
  have haccounts := accounts_operate e op r
  -- what is recorded in a product is known, so that only its answers have to be looked at
  suffices htold : Told op.recipient (op.records e.policy) (fun _ _ => True) (e.answers op r)
      (outcome (e.operate op) r) by
    refine htold.of_returned fun product hproduct => ?_
    rw [hproduct] at haccounts
    exact haccounts.records hanswers
  by_cases hop : op.IsDownload
  · rcases download_course e hop r with
      ⟨id, err, hfind, herr, hnone⟩ | ⟨transferContract, result, hresult, hcourse⟩
    · rw [herr, hnone]
      exact .refused (List.forall_mem_nil _) (hlookup.isOwn hfind)
    · rw [hresult]
      exact (hcourse.told hanswers fun _ => recipient_of_mem_jobs).map op.product
  · cases op with
    | negotiate recipient request =>
      have htells : (e.scene (.negotiate recipient request)).Tells
          (e.operate (.negotiate recipient request)) (fun _ _ => True) r :=
        Scene.Tells.bind (tells_negotiate recipient request) fun _ _ _ _ =>
          Scene.Tells.pure trivial
      obtain ⟨answers, hanswered, htold⟩ := htells
      have hanswers : e.answers (.negotiate recipient request) r = answers := hanswered.eq
      rw [hanswers]
      exact htold
    | downloadMetadata | downloadAppResource | downloadArtifacts | downloadAppArtifact =>
      exact absurd trivial hop

end Engine

/-! ## What the caller can conclude -/

/-- The failures that a connector reports; all others are those of some collaborator. -/
def Family.isConnectors : Family → Bool
  | .connector | .descriptor | .transport | .response | .unexpectedKind | .malformedAgreement
  | .mismatch | .notFound | .persistence | .configuration => true
  | _ => false

section Conclusions

variable {α : Type} {recipient : String} {records : Bool} {post : List Answer → α → Prop}
  {answers : List Answer} {result : Except Error α} {err : Error}

/-- An answer that does not pass is the one that ends the operation. -/
theorem Told.raised_of_mem (h : Told recipient records post answers result) {a : Answer}
    (ha : a ∈ answers) (hnot : ¬ a.Passes records) :
    ∃ err, result = .error err ∧ a.Raises recipient records err := by
  cases h with
  | returned passes _ => exact absurd (passes a ha) hnot
  | refused passes _ => exact absurd (passes a ha) hnot
  | raised earlier last answers_eq passes raises =>
    rw [answers_eq, List.mem_append, List.mem_singleton] at ha
    rcases ha with ha | rfl
    · exact absurd (passes a ha) hnot
    · exact ⟨_, rfl, raises⟩

/-- A failure that the connector has not found alone was raised by an answer. -/
theorem Told.mem_of_error (h : Told recipient records post answers (.error err))
    (hown : err.family.isOwn = false) : ∃ a ∈ answers, a.Raises recipient records err := by
  cases h with
  | refused _ own =>
    rw [hown] at own
    cases own
  | raised earlier last answers_eq _ raises =>
    exact ⟨last, answers_eq ▸ List.mem_append_right _ (List.mem_singleton_self last), raises⟩

theorem Answer.not_passes_unsaved (h : records = false) {save : Save} {cause : Error} :
    ¬ (Answer.saved save (.error cause)).Passes records := by
  intro hpasses
  cases hpasses with
  | recorded htrue =>
    rw [h] at htrue
    cases htrue

theorem Family.isConnectors_of_isOwn {f : Family} (h : f.isOwn = true) : f.isConnectors = true := by
  cases f <;> first | rfl | cases h

/-- The connector has found a failure alone, or it is of one of the three classes. -/
theorem Told.family_cases (h : Told recipient records post answers (.error err)) :
    err.family.isOwn = true ∨ err.family = .persistence ∨ err.family = .transport ∨
      err.family = .unexpectedKind := by
  cases h with
  | refused _ own => exact .inl own
  | raised _ _ _ _ raises =>
    cases raises with
    | unsent s _ => exact .inr (.inr (.inl (s.family_sendError _ _)))
    | unexpected _ _ => exact .inr (.inr (.inr rfl))
    | unsaved _ _ => exact .inr (.inl rfl)

theorem Told.isConnectors (h : Told recipient records post answers (.error err)) :
    err.family.isConnectors = true := by
  rcases h.family_cases with hown | hfamily | hfamily | hfamily
  · exact Family.isConnectors_of_isOwn hown
  all_goals rw [hfamily]; rfl

theorem Told.family_transport (h : Told recipient records post answers result) :
    (∃ err, result = .error err ∧ err.family = .transport) ↔
      ∃ call cause, Answer.sent call (.error cause) ∈ answers := by
  constructor
  · rintro ⟨err, rfl, hfamily⟩
    obtain ⟨a, ha, raises⟩ := h.mem_of_error (by rw [hfamily]; rfl)
    cases raises with
    | unsent s _ => exact ⟨_, _, ha⟩
    | unexpected _ _ => cases hfamily
    | unsaved _ _ => cases hfamily
  · rintro ⟨call, cause, ha⟩
    obtain ⟨err, herr, raises⟩ := h.raised_of_mem ha (by rintro ⟨⟩)
    cases raises with
    | unsent s _ => exact ⟨_, herr, s.family_sendError _ _⟩

/-- It is the transport's own, or it wraps what the transport raised and names the peer. -/
theorem Told.unsent (h : Told recipient records post answers result) {call : Call} {cause : Error}
    (ha : Answer.sent call (.error cause) ∈ answers) :
    ∃ err, result = .error err ∧
      if cause.family = .transport then err = cause
      else err.cause = some cause ∧ err.recipient = some recipient := by
  obtain ⟨err, herr, raises⟩ := h.raised_of_mem ha (by rintro ⟨⟩)
  refine ⟨err, herr, ?_⟩
  cases raises with
  | unsent s _ =>
    unfold Service.sendError
    by_cases hfamily : cause.family = .transport
    · rw [if_pos hfamily, if_pos hfamily]
    · rw [if_neg hfamily, if_neg hfamily]
      exact ⟨rfl, rfl⟩

theorem Told.family_unexpectedKind (h : Told recipient records post answers result) :
    (∃ err, result = .error err ∧ err.family = .unexpectedKind) ↔
      ∃ call reply, Answer.sent call (.ok reply) ∈ answers ∧ reply.kind ≠ call.expected := by
  constructor
  · rintro ⟨err, rfl, hfamily⟩
    obtain ⟨a, ha, raises⟩ := h.mem_of_error (by rw [hfamily]; rfl)
    cases raises with
    | unsent s _ =>
      rw [s.family_sendError] at hfamily
      cases hfamily
    | unexpected _ kind => exact ⟨_, _, ha, kind⟩
    | unsaved _ _ => cases hfamily
  · rintro ⟨call, reply, ha, kind⟩
    obtain ⟨err, herr, raises⟩ := h.raised_of_mem ha (by rintro ⟨hkind⟩; exact kind hkind)
    cases raises with
    | unexpected _ _ => exact ⟨_, herr, rfl⟩

theorem Told.family_persistence (h : Told recipient records post answers result) :
    (∃ err, result = .error err ∧ err.family = .persistence) ↔
      records = false ∧ ∃ save cause, Answer.saved save (.error cause) ∈ answers := by
  constructor
  · rintro ⟨err, rfl, hfamily⟩
    obtain ⟨a, ha, raises⟩ := h.mem_of_error (by rw [hfamily]; rfl)
    cases raises with
    | unsent s _ =>
      rw [s.family_sendError] at hfamily
      cases hfamily
    | unexpected _ _ => cases hfamily
    | unsaved _ records_eq => exact ⟨records_eq, _, _, ha⟩
  · rintro ⟨hrecords, save, cause, ha⟩
    obtain ⟨err, herr, raises⟩ := h.raised_of_mem ha
      (Answer.not_passes_unsaved hrecords)
    cases raises with
    | unsaved _ _ => exact ⟨_, herr, rfl⟩

theorem Told.unsaved (h : Told recipient records post answers result) (hrecords : records = false)
    {save : Save} {cause : Error} (ha : Answer.saved save (.error cause) ∈ answers) :
    ∃ err, result = .error err ∧ err.family = .persistence ∧ err.cause = some cause := by
  obtain ⟨err, herr, raises⟩ := h.raised_of_mem ha (Answer.not_passes_unsaved hrecords)
  cases raises with
  | unsaved _ _ => exact ⟨_, herr, rfl, rfl⟩

end Conclusions

/-- What has to be made of octets to be kept. -/
def Save.content? : Save → Option Received
  | .data reply _ | .appData reply _ => some reply.payload
  | .metadata _ _ _ _ | .appResource _ _ => none

/-- What cannot be made of octets is no failure of the store's own. -/
theorem Shelves.save_of_fault {save : Save} {content : Received} {fault : Text.EncodingFault}
    (hcontent : save.content? = some content) (hfault : content.wire = .error fault)
    (shelves : Shelves) : shelves.save save = .error (.octets fault) := by
  cases save with
  | metadata | appResource => cases hcontent
  | data reply subject | appData reply subject =>
    cases hcontent
    simp only [Shelves.save, payloadFor, hfault]
    rfl

/-- The shelves refuse nothing else but an empty payload. -/
theorem Shelves.isStoreFailure_of_save {save : Save} {shelves : Shelves} {cause : Error}
    (hsave : ∀ content ∈ save.content?, ∃ octets, content.wire = .ok octets)
    (h : shelves.save save = .error cause) : cause.isStoreFailure = true := by
  have hpayload : ∀ {reply subject} {keep : Text.Octets → Shelves},
      (∃ octets, reply.payload.wire = .ok octets) →
      (payloadFor reply subject).map keep = .error cause → cause.isStoreFailure = true := by
    rintro reply subject keep ⟨octets, hoctets⟩ hmap
    rw [payloadFor, hoctets] at hmap
    cases octets with
    | nil => cases hmap; rfl
    | cons b rest => cases hmap
  cases save with
  | metadata | appResource => cases h
  | data reply artifact => exact hpayload (hsave _ rfl) h
  | appData reply app => exact hpayload (hsave _ rfl) h

/-- They fail as a store does if what stands in front of them does. -/
theorem Persistence.failsAsStore_inMemory {hindrance : Save → σ → Option Error × σ} {save : Save}
    (hsave : ∀ content ∈ save.content?, ∃ octets, content.wire = .ok octets)
    (h : ∀ world cause, (hindrance save world).1 = some cause → cause.isStoreFailure = true) :
    (Persistence.inMemory hindrance).FailsAsStore save := by
  intro world shelves cause hresult
  have hhindrance := h world
  cases hfound : hindrance save world with
  | mk obstacle world' =>
    rw [hfound] at hhindrance
    cases obstacle with
    | some e =>
      simp only [take, hfound] at hresult
      cases hresult
      exact hhindrance _ rfl
    | none =>
      cases hshelves : shelves.save save with
      | ok shelves' =>
        simp only [take, hfound, hshelves] at hresult
        cases hresult
      | error e =>
        simp only [take, hfound, hshelves] at hresult
        cases hresult
        exact Shelves.isStoreFailure_of_save hsave hshelves

/-- **The shelves of this library are such a store** for all that can be made of octets, and for
nothing else. -/
theorem Persistence.failsAsStore_unhindered (world : σ) (save : Save) :
    (Persistence.unhindered (σ := σ)).FailsAsStore save ↔
      ∀ content ∈ save.content?, ∃ octets, content.wire = .ok octets := by
  refine ⟨fun h content hcontent => ?_, fun h => failsAsStore_inMemory h fun _ _ h => nomatch h⟩
  cases hwire : content.wire with
  | ok octets => exact ⟨octets, rfl⟩
  | error fault =>
    have hrefused := Shelves.save_of_fault hcontent hwire .empty
    have hresult : (unhindered.take save world .empty).result = .error (.octets fault) := by
      simp only [unhindered, take, hrefused]
    cases h world .empty _ hresult

namespace Engine

/-- Any other failure of a store ends the operation as it is, in no class of the connector. -/
theorem error_of_foreign (e : Engine σ) {op : Operation} {r : Run σ} {save : Save} {cause : Error}
    (ha : .saved save (.error cause) ∈ e.answers op r) (hforeign : cause.isStoreFailure = false) :
    outcome (e.operate op) r = .error cause := by
  by_cases hop : op.IsDownload
  · rcases download_course e hop r with ⟨_, _, -, -, hnone⟩ | ⟨_, result, hresult, hcourse⟩
    · rw [hnone] at ha
      cases ha
    · rw [hresult, hcourse.error_of_foreign ha hforeign]
      rfl
  · cases op with
    | negotiate recipient request =>
      have hsaves := List.filterMap_eq_nil_iff.1 (saves_negotiate e recipient request r) _ ha
      cases hsaves
    | downloadMetadata | downloadAppResource | downloadArtifacts | downloadAppArtifact =>
      exact absurd trivial hop

/-- **The class of a failure tells where it happened.** Whatever the transport raises or answers, an
operation whose replies the store fails to keep in ways of its own only ends with

* a failure to store exactly if a save failed, with what the store raised as its cause; a download
  of artifacts that carries on raises none, and its results have just these failures instead;
* a failure of the transport exactly if the transport raised something: this itself if it was one
  already, and else one with this as its cause and with the peer;
* a failure of the kind exactly if a reply was of another kind than its message asks for.

Every failure is one that the connector reports, and those of no other class it has found alone. The
shelves of this library are such a store for all replies but data that cannot be made of octets. -/
theorem class_of_failure (e : Engine σ) (hlookup : e.agreements.FailsAsLookup) (op : Operation)
    (r : Run σ)
    (hstore : ∀ save ∈ (e.answers op r).filterMap Answer.save?, e.persistence.FailsAsStore save) :
    let answers := e.answers op r
    let ended := outcome (e.operate op) r
    ((∃ err, ended = .error err ∧ err.family = .persistence) ↔
      op.records e.policy = false ∧ ∃ save cause, .saved save (.error cause) ∈ answers) ∧
    (op.records e.policy = false → ∀ save cause, .saved save (.error cause) ∈ answers →
      ∃ err, ended = .error err ∧ err.family = .persistence ∧ err.cause = some cause) ∧
    (∀ results, ended = .ok (.artifacts results) →
      (results.filterMap ArtifactResult.failure).map (fun err => (err.family, err.cause)) =
        (answers.filterMap Answer.unsaved?).map fun cause => (.persistence, some cause)) ∧
    ((∃ err, ended = .error err ∧ err.family = .transport) ↔
      ∃ call cause, .sent call (.error cause) ∈ answers) ∧
    (∀ call cause, .sent call (.error cause) ∈ answers → ∃ err, ended = .error err ∧
      if cause.family = .transport then err = cause
      else err.cause = some cause ∧ err.recipient = some op.recipient) ∧
    ((∃ err, ended = .error err ∧ err.family = .unexpectedKind) ↔
      ∃ call reply, .sent call (.ok reply) ∈ answers ∧ reply.kind ≠ call.expected) ∧
    (∀ err, ended = .error err → err.family.isConnectors = true ∧
      (err.family.isOwn = true ∨ err.family = .persistence ∨ err.family = .transport ∨
        err.family = .unexpectedKind)) ∧
    ∀ save, (Persistence.unhindered (σ := σ)).FailsAsStore save ↔
      ∀ content ∈ save.content?, ∃ octets, content.wire = .ok octets := by
  intro answers ended
  have htold : Told op.recipient (op.records e.policy) Product.Records answers ended :=
    told_operate hlookup op r hstore
  refine ⟨htold.family_persistence, fun hrecords _ _ ha => htold.unsaved hrecords ha,
    fun results hresults => ?_, htold.family_transport, fun _ _ ha => htold.unsent ha,
    htold.family_unexpectedKind, fun err herr => ?_, Persistence.failsAsStore_unhindered r.world⟩
  · rw [hresults] at htold
    cases htold with
    | returned _ holds => exact holds
  · rw [herr] at htold
    exact ⟨htold.isConnectors, htold.family_cases⟩

/-- A full disk is a failure to store, also where a connection may fail in the same way. -/
theorem class_of_failure_of_fullDisk :
    let e := withServingPeer (.plain "urn:a") .abort
    let op := Operation.downloadArtifacts "https://peer" ["urn:x", "urn:huge", "urn:y"] "agr"
    ∃ err, outcome (e.operate op) .entitled = .error err ∧ err.family = .persistence ∧
      err.cause = some diskFull := by
  intro e op
  have hstore : ∀ save ∈ (e.answers op .entitled).filterMap Answer.save?,
      e.persistence.FailsAsStore save := by
    intro save hsave
    -- this peer sends texts that all have octets
    have hcontent : ∀ save ∈ (e.answers op .entitled).filterMap Answer.save?,
        save.content? = some (.text "data") := by decide +kernel
    refine Persistence.failsAsStore_inMemory (fun content h => ?_) fun world cause h => ?_
    · cases (hcontent save hsave).symm.trans h
      exact ⟨_, rfl⟩
    · split at h
      · cases h; rfl
      · cases h
  have hfailed : diskFull ∈ (e.answers op .entitled).filterMap Answer.unsaved? := by
    decide +kernel
  obtain ⟨a, ha, hcause⟩ := List.mem_filterMap.1 hfailed
  obtain ⟨save, rfl⟩ := Answer.eq_saved_of_unsaved? hcause
  exact (class_of_failure e trivial op .entitled hstore).2.1 rfl save diskFull ha

/-- The data of an app is half of a character: the shelves of this library raise a failure of
encoding, which leaves the operation as it is and belongs to no class of the connector. -/
theorem class_of_failure_broken :
    let op := Operation.downloadAppArtifact "https://peer" "urn:app"
    let fault : Error := .octets ⟨.utf8, 0, 1, 0xD800⟩
    withBrokenPeer.persistence = .unhindered ∧
      (∃ save, .saved save (.error fault) ∈ withBrokenPeer.answers op .entitled) ∧
      outcome (withBrokenPeer.operate op) .entitled = .error fault ∧
      fault.family.isConnectors = false := by
  intro op fault
  have hfailed : fault ∈ (withBrokenPeer.answers op .entitled).filterMap Answer.unsaved? := by
    decide +kernel
  obtain ⟨a, ha, hcause⟩ := List.mem_filterMap.1 hfailed
  obtain ⟨save, rfl⟩ := Answer.eq_saved_of_unsaved? hcause
  exact ⟨rfl, ⟨save, ha⟩, error_of_foreign _ ha rfl, rfl⟩

end Engine

end Dataspace
