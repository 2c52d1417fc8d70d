import Dataspace.Proofs.Answers
import Dataspace.Proofs.Reach

/-!
# What a line of jobs comes to

A download is a line of jobs. What becomes of it is decided by what the transport and the store
answered, one job after another:

* **`Job.Ends`** — what one job ends with, given its answers: none if its descriptor is refused, one
  if the exchange fails, and else one of the transport and one of the store.
* **`Course`** — a line comes to its end, or the last job that was begun has failed.
* **`download_course`** — a download has such a course, unless it ends before its first job.
-/

namespace Dataspace

open Exchange

variable {σ : Type}

namespace Download.Job

/-! ## One job -/

/-- The message goes where the job has it go, and asks for what the job is about. -/
structure Asks (j : Job) (call : Call) : Prop where
  recipient : call.recipient = j.descriptor.recipient
  subject : call.subject? = j.descriptor.subject

/-- What becomes of a job whose reply has gone to the store. -/
def stored (records : Bool) (j : Job) : Except Error Unit → Except Error (Option Error)
  | .ok _ => .ok none
  | .error cause =>
    if cause.isStoreFailure then j.settle records (some cause) else .error cause

section Stored

variable {j : Job} {records : Bool} {cause : Error}

/-- A failure of another kind ends the job as it is. -/
theorem stored_foreign (h : cause.isStoreFailure = false) :
    j.stored records (.error cause) = .error cause := by
  simp only [stored, h, Bool.false_eq_true, if_false]

theorem stored_recorded (h : cause.isStoreFailure = true) :
    j.stored true (.error cause) = .ok (some (j.unsaved cause)) := by
  simp only [stored, h, if_true, settle]

theorem stored_raised (h : cause.isStoreFailure = true) :
    j.stored false (.error cause) = .error (j.unsaved cause) := by
  simp only [stored, h, if_true, settle, Bool.false_eq_true, if_false]

end Stored

/-- What a job ends with, and the answers that it has heard. -/
inductive Ends (records : Bool) (j : Job) : List Answer → Except Error (Option Error) → Prop
  | refused (flaw : DescriptorFlaw) : Ends records j [] (.error (.descriptor flaw))
  | unsent {call : Call} {cause : Error} (asks : j.Asks call) :
      Ends records j [.sent call (.error cause)]
        (.error (j.service.sendError j.descriptor.recipient cause))
  | unexpected {call : Call} {reply : Response} (asks : j.Asks call)
      (kind : reply.kind ≠ call.expected) :
      Ends records j [.sent call (.ok reply)]
        (.error (.unexpectedReply (j.service.unexpected reply)))
  | handed {call : Call} {reply : Response} (asks : j.Asks call)
      (kind : reply.kind = call.expected) (saving : Except Error Unit) :
      Ends records j [.sent call (.ok reply), .saved (j.errand.save reply) saving]
        (j.stored records saving)

variable {j : Job} {env : Surroundings σ} {p : Persistence σ} {records : Bool} {r : Run σ}

theorem Usual.asks_callAt (usual : j.Usual)
    (haccept : j.service.profile.accept (some j.descriptor) = .ok j.descriptor)
    (env : Surroundings σ) (payload : Payload) (asked drawn : Nat) :
    j.Asks (j.service.callAt env j.descriptor payload asked drawn) where
  recipient := rfl
  subject := by
    refine usual.service.subject?_callAt usual.properties haccept ?_
    cases usual with
    | metadata | appResource => exact .inl rfl
    | artifact | appArtifact => exact .inr rfl

/-- A reply that is accepted goes to the store, and the failure of the store is settled. -/
theorem perform_carryOut_handed {reply : Response} {r' : Run σ}
    (h : perform (j.service.sendAndValidate env (some j.descriptor) (.text "")) r =
      (.ok reply, r')) :
    perform (j.carryOut env p records) r =
      (j.stored records (outcome (save p (j.errand.save reply)) r'),
        after (keep p j.errand reply) r') := by
  have hkeep := perform_keep p j.errand reply r'
  unfold carryOut
  rw [perform_bind_ok h, perform_bind, after, hkeep]
  cases outcome (save p (j.errand.save reply)) r' with
  | ok _ => rfl
  | error cause =>
    cases hfailure : cause.isStoreFailure with
    | true => simp only [hfailure, if_true, stored, perform_ofResult]
    | false => simp only [hfailure, Bool.false_eq_true, if_false, stored]

/-- **Every job ends as its answers have it.** -/
theorem Usual.exists_ends (usual : j.Usual) (env : Surroundings σ) (p : Persistence σ)
    (records : Bool) (r : Run σ) :
    ∃ answers, Answered env.transport p r (after (j.carryOut env p records) r) answers ∧
      j.Ends records answers (outcome (j.carryOut env p records) r) := by
  unfold outcome after
  cases haccept : j.service.profile.accept (some j.descriptor) with
  | error flaw =>
    have hrefused := Service.perform_sendAndValidate_refused env haccept (.text "") r
    rw [carryOut, perform_bind_error hrefused]
    exact ⟨[], .refl r, .refused flaw⟩
  | ok d =>
    have hd := Profile.eq_of_accept haccept
    subst hd
    have hsend := Service.perform_sendAndValidate env haccept (.text "") r
    have hanswered := answered_exchanged env p j.service j.descriptor (.text "") r
    have hasks := usual.asks_callAt haccept env (.text "") r.asked r.drawn
    have hexpected :=
      usual.service.expected_callAt usual.properties env (.text "") r.asked r.drawn
    cases hanswer : (j.service.answerAt env j.descriptor (.text "") r).result with
    | error cause =>
      rw [hanswer] at hsend hanswered
      rw [carryOut, perform_bind_error hsend]
      exact ⟨_, hanswered, .unsent hasks⟩
    | ok reply =>
      rw [hanswer, Service.judged] at hsend
      rw [hanswer] at hanswered
      cases hkind : j.service.accepts reply with
      | false =>
        simp only [hkind, Bool.false_eq_true, if_false] at hsend
        rw [carryOut, perform_bind_error hsend]
        refine ⟨_, hanswered, .unexpected hasks fun heq => ?_⟩
        rw [hexpected, ← Service.accepts_iff, hkind] at heq
        cases heq
      | true =>
        simp only [hkind, if_true] at hsend
        rw [perform_carryOut_handed hsend]
        refine ⟨_, hanswered.trans (answered_keep _ _ _ _ _), .handed hasks ?_ _⟩
        rw [hexpected, ← Service.accepts_iff, hkind]

/-! ## Lines -/

/-- Jobs that all have returned, with their answers and with what became of them. -/
inductive Returned (records : Bool) : List Job → List Answer → List (Option Error) → Prop
  | nil : Returned records [] [] []
  | cons {j : Job} {rest : List Job} {answers more : List Answer} {failure : Option Error}
      {failures : List (Option Error)} (first : j.Ends records answers (.ok failure))
      (others : Returned records rest more failures) :
      Returned records (j :: rest) (answers ++ more) (failure :: failures)

/-- What a line comes to: all its jobs have returned, or all that were begun but the last. -/
inductive Course (records : Bool) (jobs : List Job) :
    List Answer → Except Error (List (Option Error)) → Prop
  | complete {answers : List Answer} {failures : List (Option Error)}
      (returned : Returned records jobs answers failures) :
      Course records jobs answers (.ok failures)
  | halted {earlier : List Job} {j : Job} {rest : List Job} {answers last : List Answer}
      {failures : List (Option Error)} {err : Error} (jobs_eq : jobs = earlier ++ j :: rest)
      (returned : Returned records earlier answers failures)
      (ends : j.Ends records last (.error err)) : Course records jobs (answers ++ last) (.error err)

theorem Course.cons {rest : List Job} {answers more : List Answer} {failure : Option Error}
    {result : Except Error (List (Option Error))} (first : j.Ends records answers (.ok failure))
    (h : Course records rest more result) :
    Course records (j :: rest) (answers ++ more) (result.map (failure :: ·)) := by
  cases h with
  | complete returned => exact .complete (.cons first returned)
  | @halted earlier _ _ before last _ _ jobs_eq returned ends =>
    rw [← List.append_assoc]
    exact .halted (congrArg (j :: ·) jobs_eq) (.cons first returned) ends

/-- A job that returns hands the line on to the next. -/
theorem perform_carryOutAll_ok {rest : List Job} {failure : Option Error} {r' : Run σ}
    (h : perform (j.carryOut env p records) r = (.ok failure, r')) :
    perform (carryOutAll env p records (j :: rest)) r =
      ((outcome (carryOutAll env p records rest) r').map (failure :: ·),
        after (carryOutAll env p records rest) r') := by
  rw [carryOutAll, perform_bind_ok h]
  exact perform_bind_pure _ _ r'

/-- **Every line of jobs has a course.** -/
theorem exists_course (env : Surroundings σ) (p : Persistence σ) (records : Bool) {jobs : List Job}
    (usual : ∀ j ∈ jobs, j.Usual) :
    ∀ r, ∃ answers, Answered env.transport p r (after (carryOutAll env p records jobs) r) answers ∧
      Course records jobs answers (outcome (carryOutAll env p records jobs) r) := by
  induction jobs with
  | nil => exact fun r => ⟨[], .refl r, .complete .nil⟩
  | cons j rest ih =>
    intro r
    obtain ⟨hj, hrest⟩ := List.forall_mem_cons.1 usual
    obtain ⟨answers, hanswered, hends⟩ := hj.exists_ends env p records r
    unfold after at hanswered
    unfold outcome at hends
    unfold outcome after
    cases hfirst : perform (j.carryOut env p records) r with
    | mk result r' =>
      rw [hfirst] at hanswered hends
      cases result with
      | error err =>
        -- the line ends with its first job
        have hjobs : j :: rest = [] ++ j :: rest := rfl
        rw [carryOutAll, perform_bind_error hfirst]
        exact ⟨answers, hanswered, .halted hjobs .nil hends⟩
      | ok failure =>
        obtain ⟨more, hmore, hcourse⟩ := ih hrest r'
        rw [perform_carryOutAll_ok hfirst]
        exact ⟨answers ++ more, hanswered.trans hmore, Course.cons hends hcourse⟩

end Download.Job

/-! ## Replies for the store -/

/-- The reply that an event hands to the store. -/
def Event.save? : Event → Option Save
  | .saved save => some save
  | _ => none

/-- The replies that were handed to the store, in their order. -/
def Run.saves (r : Run σ) : List Save :=
  r.events.filterMap Event.save?

@[simp] theorem Event.filterMap_save?_ofNotes (component : Component) (notes : List Note) :
    (ofNotes component notes).filterMap save? = [] := by
  simp [ofNotes, save?]

section Seen

variable {β : Type} {see : Event → Option β} {see' : Answer → Option β} {t : Transport σ}
  {p : Persistence σ}

/-- What is seen of single events is seen of what is heard at them. -/
theorem filterMap_heardAll
    (h : ∀ place event, (heard t p place event).1.filterMap see' = [event].filterMap see)
    (events : List Event) :
    ∀ place, (heardAll t p place events).1.filterMap see' = events.filterMap see := by
  induction events with
  | nil => exact fun _ => rfl
  | cons event rest ih =>
    intro place
    rw [heardAll, List.filterMap_append, ih, h, ← List.filterMap_append, List.singleton_append]

theorem Answered.filterMap_eq {r r' : Run σ} {answers : List Answer}
    (h : Answered t p r r' answers)
    (hsee : ∀ place event, (heard t p place event).1.filterMap see' = [event].filterMap see) :
    r'.events.filterMap see = r.events.filterMap see ++ answers.filterMap see' := by
  obtain ⟨events, hevents, hheard⟩ := h
  have hseen := filterMap_heardAll hsee events (r.world, r.shelves)
  rw [hheard] at hseen
  rw [hevents, List.filterMap_append, hseen]

end Seen

section Answers

variable {t : Transport σ} {p : Persistence σ} {r r' : Run σ} {answers : List Answer}

/-- An answer of the store for each reply that was handed to it. -/
theorem Answered.saves_eq (h : Answered t p r r' answers) :
    r'.saves = r.saves ++ answers.filterMap Answer.save? :=
  h.filterMap_eq fun _ event => by cases event <;> rfl

/-- An answer of the transport for each message that was handed to it. -/
theorem Answered.calls_eq (h : Answered t p r r' answers) :
    r'.calls = r.calls ++ answers.filterMap Answer.call? :=
  h.filterMap_eq fun _ event => by cases event <;> rfl

end Answers

/-! ## Operations -/

namespace Engine

variable {e : Engine σ}

/-- What is heard in an operation. -/
def answers (e : Engine σ) (op : Operation) (r : Run σ) : List Answer :=
  (heardAll e.transport e.persistence (r.world, r.shelves)
    ((after (e.operate op) r).events.drop r.events.length)).1

/-- Wherever an engine gets to, it has heard something on the way. -/
theorem Reaches.exists_answered {r r' : Run σ} (h : e.Reaches r r') :
    ∃ answers, Answered e.transport e.persistence r r' answers := by
  induction h with
  | refl => exact ⟨[], .refl r⟩
  | remark _ remark ih =>
    obtain ⟨answers, ih⟩ := ih
    exact ⟨answers, ih.extended _ _⟩
  | exchange _ usual plain accepted payload ih =>
    obtain ⟨answers, ih⟩ := ih
    exact ⟨_, ih.trans (answered_exchanged e.toSurroundings e.persistence _ _ payload _)⟩
  | keep _ usual reply ih =>
    obtain ⟨answers, ih⟩ := ih
    exact ⟨_, ih.trans (answered_keep e.transport e.persistence _ reply _)⟩
  | enter _ agreement ih =>
    obtain ⟨answers, ih⟩ := ih
    exact ⟨_, ih.trans (answered_storeAgreement e.transport e.persistence e.uuidAt agreement _)⟩

theorem answered_operate (e : Engine σ) (op : Operation) (r : Run σ) :
    Answered e.transport e.persistence r (after (e.operate op) r) (e.answers op r) := by
  obtain ⟨answers, hanswered⟩ := (reaches_operate e op r).exists_answered
  have heq : e.answers op r = answers := hanswered.eq
  rw [heq]
  exact hanswered

/-- A negotiation hands nothing to the store. -/
theorem saves_negotiate (e : Engine σ) (recipient : String) (request : Contract) (r : Run σ) :
    (e.answers (.negotiate recipient request) r).filterMap Answer.save? = [] := by
  have hcongruence : Congruence (σ := σ) fun x _ => Keeps Run.saves x :=
    Keeps.congruence fun r component notes => by simp [Run.saves]
  have hstore : ∀ agreement : Contract, Keeps (σ := σ) Run.saves (do
      let _ ← storeAgreement e.uuidAt agreement
      return agreement) := by
    intro agreement r
    rw [after, perform_bind_ok (perform_storeAgreement e.uuidAt agreement r)]
    simp [Run.saves, List.filterMap_cons, Event.save?]
  have hsend : ∀ (s : Service) (d : Descriptor) payload, s.Usual → d.properties = .empty →
      Keeps Run.saves (s.sendAndValidate e.toSurroundings (some d) payload) := by
    intro s d payload _ _
    refine Service.keeps_sendAndValidate (fun d payload r => ?_) (some d) payload
    simp [Run.saves, Service.exchangeEvents, List.filterMap_cons, Event.save?]
  have hnegotiate : Keeps Run.saves (e.negotiate recipient request) :=
    hcongruence.negotiate e.toSurroundings hsend rfl hstore recipient request
  have hoperate : Keeps Run.saves (e.operate (.negotiate recipient request)) :=
    hnegotiate.bind fun _ => Keeps.pure _
  -- nothing new is among the replies for the store, so none of the answers is about one
  have hsaves := (answered_operate e (.negotiate recipient request) r).saves_eq
  exact List.append_right_eq_self.1 (hsaves.symm.trans (hoperate r))

/-- Before a download nobody is asked for anything but the agreement, and nothing else can be
missing. -/
theorem perform_prepare (e : Engine σ) (op : Operation) (r : Run σ) :
    ∃ result component notes,
      perform (e.prepare op) r = (result, r.extended (Event.ofNotes component notes)) ∧
      ∀ err, result = .error err →
        ∃ id, outcome (findAgreement e.agreements id) r = .error err := by
  have hsilent : r.extended (Event.ofNotes .engine []) = r := by
    unfold Run.extended Event.ofNotes
    rw [List.map_nil, List.append_nil]
  cases op with
  | negotiate | downloadAppResource | downloadAppArtifact =>
    refine ⟨.ok "", .engine, [], ?_, fun _ h => by cases h⟩
    rw [hsilent]
    rfl
  | downloadMetadata =>
    exact ⟨.ok "", .metadata, [_], perform_bind_ok (perform_note _ _ _ _), fun _ h => by cases h⟩
  | downloadArtifacts recipient artifacts agreementId =>
    have hperform : perform (findAgreement e.agreements agreementId) r =
        (outcome (findAgreement e.agreements agreementId) r, r) :=
      Prod.ext rfl (after_findAgreement e.agreements agreementId r)
    cases hfound : outcome (findAgreement e.agreements agreementId) r with
    | error err =>
      rw [hfound] at hperform
      refine ⟨.error err, .engine, [], ?_, fun err' h => ⟨agreementId, hfound.trans ?_⟩⟩
      · rw [hsilent]
        exact perform_bind_error hperform
      · exact congrArg Except.error (Except.error.inj h)
    | ok record =>
      rw [hfound] at hperform
      exact ⟨.ok record.remoteId, .artifacts, [_],
        (perform_bind_ok hperform).trans (perform_bind_ok (perform_note _ _ _ _)),
        fun _ h => by cases h⟩

/-- **A download has the course of its jobs**, unless its agreement is not found. -/
theorem download_course (e : Engine σ) {op : Operation} (hop : op.IsDownload) (r : Run σ) :
    (∃ id err, outcome (findAgreement e.agreements id) r = .error err ∧
      outcome (e.operate op) r = .error err ∧ e.answers op r = []) ∨
    ∃ transferContract result, outcome (e.operate op) r = result.map op.product ∧
      Download.Job.Course (op.records e.policy) (e.jobs transferContract op) (e.answers op r)
        result := by
  obtain ⟨prepared, component, notes, hprepare, hmissing⟩ := perform_prepare e op r
  have hsaid : Answered e.transport e.persistence r
      (r.extended (Event.ofNotes component notes)) [] := (Answered.refl r).extended _ _
  -- what follows the preparation, whichever agreement it has found
  have hoperate := operate_download e hop
  generalize hrest : (fun transferContract => do
    let failures ← Download.Job.carryOutAll e.toSurroundings e.persistence (op.records e.policy)
      (e.jobs transferContract op)
    return op.product failures) = rest at hoperate
  cases prepared with
  | error err =>
    obtain ⟨id, hid⟩ := hmissing err rfl
    have hperform : perform (e.operate op) r = _ := hoperate ▸ perform_bind_error hprepare
    refine .inl ⟨id, err, hid, by rw [outcome, hperform], ?_⟩
    rw [answers, after, hperform]
    exact hsaid.eq
  | ok transferContract =>
    have hperform : perform (e.operate op) r = _ := hoperate ▸ perform_bind_ok hprepare
    obtain ⟨heard, hanswered, hcourse⟩ := Download.Job.exists_course e.toSurroundings e.persistence
      (op.records e.policy) (fun _ => usual_of_mem_jobs (e := e)) (r.extended _)
    rw [← hrest, perform_bind_pure] at hperform
    refine .inr ⟨transferContract, _, by rw [outcome, hperform], ?_⟩
    rw [answers, after, hperform, (hsaid.trans hanswered).eq]
    exact hcourse

end Engine

end Dataspace
