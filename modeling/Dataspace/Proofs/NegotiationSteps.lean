import Dataspace.Engine
import Dataspace.Proofs.Messages

/-!
# The steps of a negotiation, one by one

Each step of a negotiation has one equation here that says what it gives and where it leaves the
run, and `perform_advance_ok` and `perform_advance_error` say how a line of steps goes on from one
to the next. The result of a whole negotiation then is a computation without any steps in it:

* **`contractReply`** — the reply to a message about a contract, as the sender accepts it.
* **`decision`** — what the steps in their order make of the two answers of the transport.
* **`perform_negotiate`** — a negotiation ends with its decision, and hands the messages of the
  decision, in their order, to the transport.
-/

namespace Dataspace

open Exchange

variable {σ : Type}

/-! ## Messages in a chronicle -/

/-- The message of an event that hands one to the transport. -/
def Event.call? : Event → Option Call
  | .sent call => some call
  | _ => none

/-- The messages that were handed to the transport, in their order. -/
def Run.calls (r : Run σ) : List Call :=
  r.events.filterMap Event.call?

@[simp] theorem Event.filterMap_call?_ofNotes (component : Component) (notes : List Note) :
    (Event.ofNotes component notes).filterMap Event.call? = [] := by
  simp [Event.ofNotes, Event.call?]

@[simp] theorem Run.calls_extended (r : Run σ) (events : List Event) :
    (r.extended events).calls = r.calls ++ events.filterMap Event.call? := by
  simp [Run.calls]

/-- One exchange hands one message to the transport. -/
@[simp] theorem Service.calls_exchanged (env : Surroundings σ) (s : Service) (d : Descriptor)
    (payload : Payload) (r : Run σ) :
    (s.exchanged env d payload r).calls =
      r.calls ++ [s.callAt env d payload r.asked r.drawn] := by
  simp [Run.calls, Service.exchangeEvents, List.filterMap_cons, Event.call?]

/-! ## Descriptors of one subject -/

/-- A profile that asks for no more than a peer and a subject takes a descriptor that has both. -/
theorem Profile.accept_about {p : Profile} (hp : p.required = [.recipient, .subject])
    {recipient subject : String} (hr : recipient ≠ "") (hs : subject ≠ "") :
    p.accept (some (.about p.kind recipient subject)) =
      .ok (.about p.kind recipient subject) := by
  have hmissing : p.missing (.about p.kind recipient subject) = [] := by
    simp [Profile.missing, hp, DescriptorField.filledIn, Descriptor.about, hr, hs]
  have hkind : ¬ (Descriptor.about p.kind recipient subject).kind ≠ p.kind := fun h => h rfl
  simp only [Profile.accept, if_neg hkind, if_pos hmissing]

/-- It refuses a descriptor that lacks one of them. -/
theorem Profile.accept_about_refused {p : Profile} (hp : p.required = [.recipient, .subject])
    {recipient subject : String} (h : recipient = "" ∨ subject = "") :
    ∃ flaw, p.accept (some (.about p.kind recipient subject)) = .error flaw := by
  have hmissing : p.missing (.about p.kind recipient subject) ≠ [] := by
    rcases h with rfl | rfl
    -- without a peer the first of the two fields is missing, whatever the second holds
    · simp [Profile.missing, hp, DescriptorField.filledIn, Descriptor.about]
    · rw [Profile.missing, hp]
      simp only [DescriptorField.filledIn, Descriptor.about, List.filter_cons]
      split <;> simp
  have hkind : ¬ (Descriptor.about p.kind recipient subject).kind ≠ p.kind := fun h => h rfl
  exact ⟨.missing p.kind (p.missing (.about p.kind recipient subject)),
    by simp only [Profile.accept, if_neg hkind, if_neg hmissing]⟩

namespace Negotiation

/-! ## Messages about a contract -/

/-- The reply to a message about a contract, as its sender accepts it. -/
def contractReply (env : Surroundings σ) (s : Service) (recipient : String) (c : Contract)
    (r : Run σ) : Except Error Response :=
  match s.profile.accept (some (.about s.profile.kind recipient c.id)) with
  | .error flaw => .error (.descriptor flaw)
  | .ok d => s.judged recipient (s.answerAt env d (contractPayload c) r).result

/-- The run after a message about a contract: a refused one leaves it as it is. -/
def contractSent (env : Surroundings σ) (s : Service) (recipient : String) (c : Contract)
    (r : Run σ) : Run σ :=
  match s.profile.accept (some (.about s.profile.kind recipient c.id)) with
  | .error _ => r
  | .ok d => s.exchanged env d (contractPayload c) r

theorem perform_sendContract (env : Surroundings σ) (s : Service) (recipient : String)
    (c : Contract) (r : Run σ) :
    perform (sendContract env s recipient c) r =
      (contractReply env s recipient c r, contractSent env s recipient c r) := by
  unfold sendContract contractReply contractSent
  -- the profile decides whether there is an exchange at all
  cases h : s.profile.accept (some (.about s.profile.kind recipient c.id)) with
  | error flaw => exact Service.perform_sendAndValidate_refused env h _ r
  | ok d =>
    have hd := Profile.eq_of_accept h
    subst hd
    exact Service.perform_sendAndValidate env h _ r

/-! ## Single steps -/

section Steps

variable (env : Surroundings σ) (x : Examiner) {n : Negotiation} (r : Run σ)

theorem perform_sendRequest {reply : Response}
    (h : contractReply env .contractRequests n.recipient n.request r = .ok reply) :
    perform (step env x n .sendRequest) r =
      (.ok { n with response := some reply },
        contractSent env .contractRequests n.recipient n.request r) := by
  rw [step, perform_bind, perform_sendContract, h]
  rfl

theorem perform_sendRequest_error {e : Error}
    (h : contractReply env .contractRequests n.recipient n.request r = .error e) :
    perform (step env x n .sendRequest) r =
      (.error e, contractSent env .contractRequests n.recipient n.request r) := by
  rw [step, perform_bind, perform_sendContract, h]

theorem perform_extract {reply : Response} {body : Received} (hreply : n.response = some reply)
    (h : reply.payload.toText .utf8 = .ok body) :
    perform (step env x n .extractAgreement) r = (.ok { n with body := some body }, r) := by
  rw [step, perform_ofResult, extract, hreply]
  simp only [h]

theorem perform_extract_error {reply : Response} {fault : Text.DecodingFault}
    (hreply : n.response = some reply) (h : reply.payload.toText .utf8 = .error fault) :
    perform (step env x n .extractAgreement) r =
      (.error (.agreement (.notText fault)), r) := by
  rw [step, perform_ofResult, extract, hreply]
  simp only [h]

theorem perform_validate {body : Received} {agreement : Contract} (hbody : n.body = some body)
    (h : (x.examine (some body) n.request).1 = .ok agreement) :
    perform (step env x n .validateAgreement) r =
      (.ok { n with agreement := some agreement },
        r.extended (Event.ofNotes .examination (x.examine (some body) n.request).2)) := by
  rw [step, hbody]
  -- what the examiner says is recorded first, its result is looked at afterwards
  generalize x.examine (some body) n.request = found at h ⊢
  obtain ⟨result, notes⟩ := found
  simp only at h
  simp only [perform_bind, perform_say, h, perform_ofResult, perform_pure]

theorem perform_validate_error {body : Received} {e : Error} (hbody : n.body = some body)
    (h : (x.examine (some body) n.request).1 = .error e) :
    perform (step env x n .validateAgreement) r =
      (.error e,
        r.extended (Event.ofNotes .examination (x.examine (some body) n.request).2)) := by
  rw [step, hbody]
  generalize x.examine (some body) n.request = found at h ⊢
  obtain ⟨result, notes⟩ := found
  simp only at h
  simp only [perform_bind, perform_say, h, perform_ofResult]

theorem perform_publish {agreement : Contract} (h : n.agreement = some agreement) :
    perform (step env x n .publishAgreement) r = (.ok { n with published := true }, r) := by
  rw [step, perform_ofResult, publish, h]

/-- Confirming sends the agreement back and looks at no more than the kind of the reply. -/
theorem perform_confirm {agreement : Contract} (h : n.agreement = some agreement) :
    perform (step env x n .confirmAgreement) r =
      ((contractReply env .contractAgreements n.recipient agreement r).map fun _ =>
          { n with confirmed := true },
        contractSent env .contractAgreements n.recipient agreement r) := by
  rw [step, h]
  simp only [perform_bind, perform_sendContract, perform_pure]
  cases contractReply env .contractAgreements n.recipient agreement r with
  | error e => rfl
  | ok reply => rfl

end Steps

section Advance

variable {env : Surroundings σ} {x : Examiner} {n n' : Negotiation} {r r' : Run σ}
  {s : NegotiationStep}

/-- What is said when a step is done. -/
def doneNote (n : Negotiation) (s : NegotiationStep) : Note :=
  (.debug, "Negotiation " ++ n.request.id ++ ": step " ++ s.name ++ " done")

/-- What is said when a step ends the negotiation. -/
def abortNote (n : Negotiation) (s : NegotiationStep) (e : Error) : Note :=
  (.warning, "Negotiation " ++ n.request.id ++ " with " ++ n.recipient ++
    " aborted at " ++ s.name ++ ": " ++ e.message)

/-- A line of steps whose first one is done goes on from where that ended. -/
theorem perform_advance_ok (h : perform (step env x n s) r = (.ok n', r'))
    (rest : List NegotiationStep) :
    perform (advance env x n (s :: rest)) r =
      perform (advance env x n' rest)
        (r'.extended (Event.ofNotes .negotiation [n.doneNote s])) := by
  rw [advance]
  simp only [perform_bind, perform_attempt, h, perform_note, doneNote]

/-- A line of steps whose first one fails ends there. -/
theorem perform_advance_error {e : Error} (h : perform (step env x n s) r = (.error e, r'))
    (rest : List NegotiationStep) :
    perform (advance env x n (s :: rest)) r =
      (.error e, r'.extended (Event.ofNotes .negotiation [n.abortNote s e])) := by
  rw [advance]
  simp only [perform_bind, perform_attempt, h, perform_note, perform_throw, abortNote]

/-- A negotiation whose steps are all done says so and ends where they end. -/
theorem perform_run {steps : List NegotiationStep} {recipient : String} {request : Contract}
    (h : perform (advance env x (start recipient request) steps) r = (.ok n, r')) :
    ∃ notes, perform (run env x steps recipient request) r =
      (.ok n, r'.extended (Event.ofNotes .negotiation notes)) := by
  rw [run, perform_bind_ok h]
  simp only [perform_bind, perform_note, perform_pure]
  exact ⟨_, rfl⟩

end Advance

/-! ## The usual steps together -/

/-- The message about a contract that is handed to the transport, if there is one. -/
def contractCalls (env : Surroundings σ) (s : Service) (recipient : String) (c : Contract)
    (r : Run σ) : List Call :=
  match s.profile.accept (some (.about s.profile.kind recipient c.id)) with
  | .error _ => []
  | .ok d => [s.callAt env d (contractPayload c) r.asked r.drawn]

@[simp] theorem calls_contractSent (env : Surroundings σ) (s : Service) (recipient : String)
    (c : Contract) (r : Run σ) :
    (contractSent env s recipient c r).calls = r.calls ++ contractCalls env s recipient c r := by
  unfold contractSent contractCalls
  cases s.profile.accept (some (.about s.profile.kind recipient c.id)) with
  | error flaw => simp
  | ok d => simp

/-- What the chronicle says has no influence on a message. -/
@[simp] theorem contractReply_extended (env : Surroundings σ) (s : Service) (recipient : String)
    (c : Contract) (r : Run σ) (events : List Event) :
    contractReply env s recipient c (r.extended events) = contractReply env s recipient c r := rfl

@[simp] theorem contractCalls_extended (env : Surroundings σ) (s : Service) (recipient : String)
    (c : Contract) (r : Run σ) (events : List Event) :
    contractCalls env s recipient c (r.extended events) = contractCalls env s recipient c r := rfl

/-- What the request brings: the agreement in the reply, or why there is none. -/
def examined (env : Surroundings σ) (x : Examiner) (recipient : String) (request : Contract)
    (r : Run σ) : Except Error Contract :=
  match contractReply env .contractRequests recipient request r with
  | .error e => .error e
  | .ok reply =>
    match reply.payload.toText .utf8 with
    | .error fault => .error (.agreement (.notText fault))
    | .ok body => (x.examine (some body) request).1

section Together

variable {env : Surroundings σ} {x : Examiner} {recipient : String} {request : Contract}
  {r : Run σ}

/-- If the request brings no agreement, the negotiation ends with the reason, and no message but the
request was sent. -/
theorem perform_advance_refused {e : Error} (h : examined env x recipient request r = .error e)
    (rest : List NegotiationStep) :
    ∃ events, events.filterMap Event.call? = [] ∧
      perform (advance env x (start recipient request)
          (.sendRequest :: .extractAgreement :: .validateAgreement :: rest)) r =
        (.error e, (contractSent env .contractRequests recipient request r).extended events) := by
  unfold examined at h
  cases hreply : contractReply env .contractRequests recipient request r with
  | error e' =>
    -- the request itself failed
    rw [hreply] at h
    cases h
    have hsend := perform_sendRequest_error env x (n := start recipient request) r hreply
    exact ⟨_, Event.filterMap_call?_ofNotes _ _, perform_advance_error hsend _⟩
  | ok reply =>
    rw [hreply] at h
    rw [perform_advance_ok (perform_sendRequest env x (n := start recipient request) r hreply)]
    cases hbody : reply.payload.toText .utf8 with
    | error fault =>
      -- the payload is no text
      simp only [hbody] at h
      cases h
      rw [perform_advance_error (perform_extract_error env x _ rfl hbody), Run.extended_extended]
      exact ⟨_, by simp, rfl⟩
    | ok body =>
      -- the text is no agreement, or not one that the request allows
      simp only [hbody] at h
      rw [perform_advance_ok (perform_extract env x _ rfl hbody),
        perform_advance_error (perform_validate_error env x _ rfl h),
        Run.extended_extended, Run.extended_extended, Run.extended_extended]
      exact ⟨_, by simp, rfl⟩

/-- If the request brings an agreement, the negotiation comes to its remaining steps with it. -/
theorem perform_advance_examined {agreement : Contract}
    (h : examined env x recipient request r = .ok agreement) (rest : List NegotiationStep) :
    ∃ n events, n.recipient = recipient ∧ n.agreement = some agreement ∧
      events.filterMap Event.call? = [] ∧
      perform (advance env x (start recipient request)
          (.sendRequest :: .extractAgreement :: .validateAgreement :: .publishAgreement :: rest))
          r =
        perform (advance env x n rest)
          ((contractSent env .contractRequests recipient request r).extended events) := by
  -- an agreement was brought, so none of the first three steps can have failed
  unfold examined at h
  cases hreply : contractReply env .contractRequests recipient request r with
  | error e => rw [hreply] at h; cases h
  | ok reply =>
    rw [hreply] at h
    cases hbody : reply.payload.toText .utf8 with
    | error fault => simp only [hbody] at h; cases h
    | ok body =>
      simp only [hbody] at h
      rw [perform_advance_ok (perform_sendRequest env x (n := start recipient request) r hreply),
        perform_advance_ok (perform_extract env x _ rfl hbody),
        perform_advance_ok (perform_validate env x _ rfl h),
        perform_advance_ok (perform_publish env x _ rfl),
        Run.extended_extended, Run.extended_extended, Run.extended_extended,
        Run.extended_extended]
      exact ⟨_, _, rfl, rfl, by simp, rfl⟩

end Together

end Negotiation

namespace Engine

open Negotiation

/-! ## The engine's part -/

/-- The run after an agreement was reached: the book has taken it, or it is left to the caller. -/
def kept (e : Engine σ) (agreement : Contract) (r : Run σ) : Run σ :=
  match e.agreements with
  | .inMemory => after (storeAgreement e.uuidAt agreement) r
  | .lookup _ =>
    r.extended (Event.ofNotes .engine [(.debug,
      "Agreement collaborator cannot store; leaving " ++ agreement.id ++ " to the caller")])

/-- Keeping an agreement sends nothing. -/
@[simp] theorem calls_kept (e : Engine σ) (agreement : Contract) (r : Run σ) :
    (e.kept agreement r).calls = r.calls := by
  unfold kept
  cases e.agreements with
  | inMemory => simp [after, perform_storeAgreement, Run.calls, List.filterMap_cons, Event.call?]
  | lookup find => simp

section Negotiate

variable {e : Engine σ} {recipient : String} {request : Contract} {r r' : Run σ}

/-- An agreement that the steps reach is kept and returned. -/
theorem perform_negotiate_reached {n : Negotiation} {agreement : Contract}
    (h : perform (Negotiation.run e.toSurroundings e.examiner e.steps recipient request) r =
      (.ok n, r'))
    (hn : n.agreement = some agreement) :
    perform (e.negotiate recipient request) r = (.ok agreement, e.kept agreement r') := by
  have hagreed : perform (agreed n) r' = (.ok agreement, r') := by
    rw [agreed, hn]
    rfl
  rw [negotiate, perform_bind_ok h, perform_bind_ok hagreed, kept]
  -- a book that is kept elsewhere gets no more than a note
  cases e.agreements with
  | inMemory => simp only [perform_bind, perform_storeAgreement, perform_pure, after]
  | lookup find => simp only [perform_bind, perform_note, perform_pure]

/-- A failure of the steps is the failure of the negotiation, and nothing is kept. -/
theorem perform_negotiate_failed {err : Error}
    (h : perform (Negotiation.run e.toSurroundings e.examiner e.steps recipient request) r =
      (.error err, r')) :
    perform (e.negotiate recipient request) r = (.error err, r') := by
  rw [negotiate, perform_bind_error h]

/-- A negotiation whose steps reach no agreement fails, and nothing is kept. -/
theorem perform_negotiate_lacking {n : Negotiation}
    (h : perform (Negotiation.run e.toSurroundings e.examiner e.steps recipient request) r =
      (.ok n, r'))
    (hn : n.agreement = none) :
    perform (e.negotiate recipient request) r = (.error (.agreement .notValidated), r') := by
  have hagreed : perform (agreed n) r' = (.error (.agreement .notValidated), r') := by
    rw [agreed, hn]
    rfl
  rw [negotiate, perform_bind_ok h, perform_bind_error hagreed]

end Negotiate

/-- What a negotiation comes to: the agreement that the request brings, once it is confirmed if that
is asked for. -/
def decision (e : Engine σ) (recipient : String) (request : Contract) (r : Run σ) :
    Except Error Contract :=
  match examined e.toSurroundings e.examiner recipient request r with
  | .error err => .error err
  | .ok agreement =>
    if e.confirms then
      (contractReply e.toSurroundings .contractAgreements recipient agreement
        (contractSent e.toSurroundings .contractRequests recipient request r)).map
          fun _ => agreement
    else .ok agreement

/-- The messages that a negotiation hands to the transport. -/
def negotiationCalls (e : Engine σ) (recipient : String) (request : Contract) (r : Run σ) :
    List Call :=
  contractCalls e.toSurroundings .contractRequests recipient request r ++
    match examined e.toSurroundings e.examiner recipient request r with
    | .error _ => []
    | .ok agreement =>
      if e.confirms then
        contractCalls e.toSurroundings .contractAgreements recipient agreement
          (contractSent e.toSurroundings .contractRequests recipient request r)
      else []

/-- A negotiation ends with its decision, and its messages are those of the decision. -/
theorem perform_negotiate (e : Engine σ) (recipient : String) (request : Contract) (r : Run σ) :
    ∃ r', perform (e.negotiate recipient request) r = (e.decision recipient request r, r') ∧
      r'.calls = r.calls ++ e.negotiationCalls recipient request r := by
  unfold decision negotiationCalls
  cases hexamined : examined e.toSurroundings e.examiner recipient request r with
  | error err =>
    -- the steps that would come later do not matter
    obtain ⟨events, hevents, hadvance⟩ := perform_advance_refused hexamined
      (.publishAgreement :: if e.confirms then [.confirmAgreement] else [])
    refine ⟨_, perform_negotiate_failed (perform_bind_error hadvance), ?_⟩
    simp [hevents]
  | ok agreement =>
    obtain ⟨n, events, rfl, hn, hevents, hadvance⟩ := perform_advance_examined hexamined
      (if e.confirms then [.confirmAgreement] else [])
    have hsteps : perform (advance e.toSurroundings e.examiner (start n.recipient request)
        e.steps) r = _ := hadvance
    cases hconfirms : e.confirms with
    | false =>
      -- without a confirmation no step remains
      rw [hconfirms] at hsteps
      obtain ⟨notes, hrun⟩ := perform_run (hsteps.trans (perform_pure _ _))
      refine ⟨_, perform_negotiate_reached hrun hn, ?_⟩
      simp [hevents]
    | true =>
      -- the confirmation sees the run as the request left it
      rw [hconfirms] at hsteps
      have hconfirm := perform_confirm e.toSurroundings e.examiner
        ((contractSent e.toSurroundings .contractRequests n.recipient request r).extended events)
        hn
      rw [contractReply_extended] at hconfirm
      simp only [if_true]
      cases hreply : contractReply e.toSurroundings .contractAgreements n.recipient agreement
          (contractSent e.toSurroundings .contractRequests n.recipient request r) with
      | error err =>
        -- a refused confirmation is the result, although an agreement was brought
        rw [hreply] at hconfirm
        refine ⟨_, perform_negotiate_failed
          (perform_bind_error (hsteps.trans (perform_advance_error hconfirm _))), ?_⟩
        simp [hevents]
      | ok receipt =>
        rw [hreply] at hconfirm
        obtain ⟨notes, hrun⟩ := perform_run
          (hsteps.trans ((perform_advance_ok hconfirm _).trans (perform_pure _ _)))
        refine ⟨_, perform_negotiate_reached hrun hn, ?_⟩
        simp [hevents]

end Engine

end Dataspace
