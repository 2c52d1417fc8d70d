import Dataspace.Proofs.Answers

/-!
# Actions that tell where they failed

An action works with a transport and a store, and both may fail in the same ways. What it ends with
is decided by what they answered:

* **`Answer.Passes`**, **`Answer.Raises`** — the answers after which an action goes on, and those
  that end it, with the error that they end it with.
* **`Told`** — what an action ends with, given its answers.
* **`Scene.Tells`** — an action goes on as long as the answers pass, and ends with what the first
  other one raises. Sequences keep this (`Tells.bind`), so that it is looked at only where a
  collaborator is called (`Tells.sendAndValidate`). The steps of a negotiation follow their own text
  (`Tells.step`, `Tells.run`).
-/

namespace Dataspace

open Exchange

variable {σ : Type}

/-! ## Answers that end an operation -/

namespace Answer

/-- An answer after which an operation goes on. Some only record that a reply was not stored. -/
inductive Passes (records : Bool) : Answer → Prop
  | replied {call : Call} {reply : Response} (kind : reply.kind = call.expected) :
      Passes records (.sent call (.ok reply))
  | stored {save : Save} : Passes records (.saved save (.ok ()))
  | recorded {save : Save} {cause : Error} (records_eq : records = true) :
      Passes records (.saved save (.error cause))

/-- An answer that ends an operation, and what it ends with. -/
inductive Raises (recipient : String) (records : Bool) : Answer → Error → Prop
  | unsent (s : Service) {call : Call} {cause : Error} (addressed : call.recipient = recipient) :
      Raises recipient records (.sent call (.error cause)) (s.sendError recipient cause)
  | unexpected (s : Service) {call : Call} {reply : Response} (kind : reply.kind ≠ call.expected) :
      Raises recipient records (.sent call (.ok reply)) (.unexpectedReply (s.unexpected reply))
  | unsaved (message : String) {save : Save} {cause : Error} (records_eq : records = false) :
      Raises recipient records (.saved save (.error cause)) (.unsaved message cause)

end Answer

/-- The failures that a connector finds without any collaborator having failed. -/
def Family.isOwn : Family → Bool
  | .descriptor | .malformedAgreement | .mismatch | .notFound => true
  | _ => false

/-- What an action ends with, given what it has heard. -/
inductive Told {α : Type} (recipient : String) (records : Bool) (post : List Answer → α → Prop)
    (answers : List Answer) : Except Error α → Prop
  | returned {value : α} (passes : ∀ a ∈ answers, a.Passes records) (holds : post answers value) :
      Told recipient records post answers (.ok value)
  | refused {err : Error} (passes : ∀ a ∈ answers, a.Passes records)
      (own : err.family.isOwn = true) : Told recipient records post answers (.error err)
  | raised {err : Error} (earlier : List Answer) (last : Answer)
      (answers_eq : answers = earlier ++ [last]) (passes : ∀ a ∈ earlier, a.Passes records)
      (raises : last.Raises recipient records err) :
      Told recipient records post answers (.error err)

section Told

variable {α : Type} {recipient : String} {records : Bool} {answers more : List Answer}
  {post : List Answer → α → Prop} {result : Except Error α}

theorem Told.of_returned (h : Told recipient records (fun _ _ => True) answers result)
    (hpost : ∀ a, result = .ok a → post answers a) :
    Told recipient records post answers result := by
  cases h with
  | returned passes _ => exact .returned passes (hpost _ rfl)
  | refused passes own => exact .refused passes own
  | raised earlier last answers_eq passes raises =>
    exact .raised earlier last answers_eq passes raises

/-- What is made of the value in the end does not matter. -/
theorem Told.map {β : Type} (h : Told recipient records post answers result) (f : α → β) :
    Told recipient records (fun _ _ => True) answers (result.map f) := by
  cases h with
  | returned passes _ => exact .returned passes trivial
  | refused passes own => exact .refused passes own
  | raised earlier last answers_eq passes raises =>
    exact .raised earlier last answers_eq passes raises

/-- An error ends whatever was to follow, and it is told in the same way there. -/
theorem Told.error {β : Type} {err : Error} (h : Told recipient records post answers (.error err))
    (post'' : List Answer → β → Prop) : Told recipient records post'' answers (.error err) := by
  cases h with
  | refused passes own => exact .refused passes own
  | raised earlier last answers_eq passes raises =>
    exact .raised earlier last answers_eq passes raises

/-- What is told after answers that pass is told after all of them. -/
theorem Told.behind (hpasses : ∀ a ∈ answers, a.Passes records)
    (h : Told recipient records (fun more a => post (answers ++ more) a) more result) :
    Told recipient records post (answers ++ more) result := by
  have hall : ∀ {rest : List Answer}, (∀ a ∈ rest, a.Passes records) →
      ∀ a ∈ answers ++ rest, a.Passes records :=
    fun hrest a ha => (List.mem_append.1 ha).elim (hpasses a) (hrest a)
  cases h with
  | returned passes holds => exact .returned (hall passes) holds
  | refused passes own => exact .refused (hall passes) own
  | raised earlier last answers_eq passes raises =>
    refine .raised (answers ++ earlier) last ?_ (hall passes) raises
    rw [answers_eq, List.append_assoc]

end Told

/-! ## Actions that tell -/

/-- The collaborators of an operation, the peer that it talks to, and whether it only records that a
reply was not stored. -/
structure Scene (σ : Type) where
  transport : Transport σ
  persistence : Persistence σ
  recipient : String
  records : Bool

/-- From this point on the action goes on as long as the answers pass, ends with what the first
other answer raises, and if it returns, then with a value that goes with the answers. -/
def Scene.Tells {α : Type} (c : Scene σ) (x : Exchange σ α) (post : List Answer → α → Prop)
    (r : Run σ) : Prop :=
  ∃ answers, Answered c.transport c.persistence r (after x r) answers ∧
    Told c.recipient c.records post answers (outcome x r)

namespace Scene

variable {α β : Type} {c : Scene σ} {post : List Answer → α → Prop}
  {post' : List Answer → β → Prop} {r : Run σ}

theorem Tells.pure {a : α} (h : post [] a) : c.Tells (Pure.pure a) post r :=
  ⟨[], .refl r, .returned (List.forall_mem_nil _) h⟩

theorem Tells.throw {err : Error} (h : err.family.isOwn = true) :
    c.Tells (MonadExcept.throw err) post r :=
  ⟨[], .refl r, .refused (List.forall_mem_nil _) h⟩

theorem Tells.ofResult {result : Except Error α}
    (herr : ∀ err, result = .error err → err.family.isOwn = true)
    (hvalue : ∀ a, result = .ok a → post [] a) : c.Tells (ofResult result) post r := by
  cases result with
  | error err => exact Tells.throw (herr err rfl)
  | ok a => exact Tells.pure (hvalue a rfl)

theorem Tells.say {component : Component} {notes : List Note} {post : List Answer → PUnit → Prop}
    (h : post [] ⟨⟩) : c.Tells (say component notes) post r :=
  ⟨[], Answered.extended (.refl r) component notes,
    .returned (List.forall_mem_nil _) h⟩

/-- **Sequences tell if their parts do.** The second part begins where the first one has returned,
and what it ends with goes with the answers of both. -/
theorem Tells.bind {x : Exchange σ α} {f : α → Exchange σ β} (hx : c.Tells x post r)
    (hf : ∀ a answers, outcome x r = .ok a → post answers a →
      c.Tells (f a) (fun more b => post' (answers ++ more) b) (after x r)) :
    c.Tells (x >>= f) post' r := by
  obtain ⟨answers, hanswered, htold⟩ := hx
  unfold outcome after at *
  unfold Tells outcome after
  rw [perform_bind]
  generalize perform x r = found at *
  obtain ⟨result, r'⟩ := found
  cases result with
  | error err => exact ⟨answers, hanswered, htold.error post'⟩
  | ok a =>
    cases htold with
    | returned passes holds =>
      obtain ⟨more, hmore, htold'⟩ := hf a answers rfl holds
      exact ⟨answers ++ more, hanswered.trans hmore, htold'.behind passes⟩

/-- Nobody answers to what is said in between. -/
theorem Tells.say_bind {component : Component} {notes : List Note} {f : PUnit → Exchange σ β}
    (h : ∀ r, c.Tells (f ⟨⟩) post' r) : c.Tells (Exchange.say component notes >>= f) post' r := by
  have hsay : c.Tells (Exchange.say component notes) (fun answers _ => answers = []) r :=
    Tells.say rfl
  refine Tells.bind hsay fun _ answers _ hanswers => ?_
  subst hanswers
  exact h _

theorem Tells.note_bind {level : Level} {component : Component} {text : String}
    {f : PUnit → Exchange σ β} (h : ∀ r, c.Tells (f ⟨⟩) post' r) :
    c.Tells (Exchange.note level component text >>= f) post' r :=
  Tells.say_bind h

end Scene

/-! ## Exchanges -/

namespace Scene

variable {c : Scene σ} {r : Run σ}

/-- An exchange ends with what the transport raises, or with a reply of the kind that its message
asks for, or because that reply is of another kind. -/
theorem Tells.sendAndValidate {env : Surroundings σ} (henv : env.transport = c.transport)
    {s : Service} (hs : s.Usual) {d : Descriptor} (hd : d.properties = .empty)
    (hrecipient : d.recipient = c.recipient) (payload : Payload) :
    c.Tells (s.sendAndValidate env (some d) payload)
      (fun _ _ => True) r := by
  cases haccept : s.profile.accept (some d) with
  | error flaw =>
    unfold Tells outcome after
    rw [Service.perform_sendAndValidate_refused env haccept]
    exact ⟨[], .refl r, .refused (List.forall_mem_nil _) rfl⟩
  | ok d' =>
    cases Profile.eq_of_accept haccept
    have hexpected := hs.expected_callAt hd env payload r.asked r.drawn
    have hanswered := answered_exchanged env c.persistence s d payload r
    rw [henv] at hanswered
    unfold Tells outcome after
    rw [Service.perform_sendAndValidate env haccept]
    refine ⟨_, hanswered, ?_⟩
    -- the one answer either passes or ends the exchange
    cases (s.answerAt env d payload r).result with
    | error cause =>
      exact .raised [] _ rfl (List.forall_mem_nil _)
        (hrecipient ▸ .unsent s rfl)
    | ok reply =>
      rw [Service.judged]
      cases hkind : s.accepts reply with
      | true =>
        have hreply := Service.accepts_iff.1 hkind
        refine .returned (List.forall_mem_singleton.2 (.replied ?_)) trivial
        rw [hreply, hexpected]
      | false =>
        have hreply := mt Service.accepts_iff.2 (Bool.eq_false_iff.1 hkind)
        refine .raised [] _ rfl (List.forall_mem_nil _) (.unexpected s ?_)
        rw [hexpected]
        exact hreply

end Scene

/-! ## Negotiations -/

namespace Negotiation

/-- Whether every confirmation in a line of steps finds an agreement, given whether there is one at
the beginning. -/
def confirmable : (agreed : Bool) → List NegotiationStep → Bool
  | _, [] => true
  | agreed, .confirmAgreement :: rest => agreed && confirmable agreed rest
  | _, .validateAgreement :: rest => confirmable true rest
  | agreed, .sendRequest :: rest | agreed, .extractAgreement :: rest
  | agreed, .publishAgreement :: rest => confirmable agreed rest

theorem confirmable_usualSteps (confirms : Bool) :
    confirmable false (usualSteps confirms) = true := by
  cases confirms <;> rfl

/-- What a step keeps, and when there is an agreement after it. -/
structure Follows (n : Negotiation) (s : NegotiationStep) (n' : Negotiation) : Prop where
  recipient : n'.recipient = n.recipient
  agreed : n'.agreement.isSome = (decide (s = .validateAgreement) || n.agreement.isSome)

variable {n n' : Negotiation} {err : Error}

theorem isOwn_of_extract (h : n.extract = .error err) : err.family.isOwn = true := by
  unfold extract at h
  split at h
  · cases h
    rfl
  · split at h
    · cases h
      rfl
    · cases h

theorem follows_extract (h : n.extract = .ok n') : n.Follows .extractAgreement n' := by
  unfold extract at h
  split at h
  · cases h
  · split at h
    · cases h
    · cases h
      exact ⟨rfl, rfl⟩

theorem isOwn_of_publish (h : n.publish = .error err) : err.family.isOwn = true := by
  unfold publish at h
  split at h
  · cases h
    rfl
  · cases h

theorem follows_publish (h : n.publish = .ok n') : n.Follows .publishAgreement n' := by
  unfold publish at h
  split at h
  · cases h
  · cases h
    exact ⟨rfl, rfl⟩

end Negotiation

theorem Examiner.isOwn_of_examine {x : Examiner} {body : Option Received} {request : Contract}
    {err : Error} (h : (x.examine body request).1 = .error err) : err.family.isOwn = true := by
  unfold examine at h
  cases hread : Contract.readAgreement body with
  | error flaw =>
    rw [hread] at h
    cases h
    rfl
  | ok agreement =>
    rw [hread] at h
    cases hcompare : x.compare agreement request with
    | nil => simp only [hcompare] at h; cases h
    | cons text texts =>
      simp only [hcompare] at h
      cases h
      rfl

namespace Scene

open Negotiation

variable {c : Scene σ} {r : Run σ} {env : Surroundings σ} {x : Examiner} {n : Negotiation}

theorem Tells.sendContract (henv : env.transport = c.transport) {s : Service} (hs : s.Usual)
    (contract : Contract) :
    c.Tells (sendContract env s c.recipient contract) (fun _ _ => True) r :=
  Tells.sendAndValidate henv hs rfl rfl _

/-- **One step of a negotiation.** Confirming needs an agreement; what it does without one is no
failure that a connector reports. -/
theorem Tells.step (henv : env.transport = c.transport) (hn : n.recipient = c.recipient)
    (s : NegotiationStep) (hs : s = .confirmAgreement → n.agreement.isSome = true) :
    c.Tells (Negotiation.step env x n s) (fun _ n' => n.Follows s n') r := by
  cases s with
  | sendRequest =>
    rw [Negotiation.step, hn]
    exact Tells.bind (Tells.sendContract henv .contractRequests _)
      fun reply _ _ _ => Tells.pure ⟨hn.symm, rfl⟩
  | extractAgreement => exact Tells.ofResult (fun _ => isOwn_of_extract) fun _ => follows_extract
  | validateAgreement =>
    rw [Negotiation.step]
    have hown : ∀ err, (x.examine n.body n.request).1 = .error err →
        err.family.isOwn = true := fun _ => x.isOwn_of_examine
    generalize x.examine n.body n.request = found at hown
    obtain ⟨result, notes⟩ := found
    refine Tells.say_bind fun r => ?_
    have hresult : c.Tells (Exchange.ofResult result) (fun _ _ => True) r :=
      Tells.ofResult hown fun _ _ => trivial
    exact Tells.bind hresult fun agreement _ _ _ => Tells.pure ⟨rfl, rfl⟩
  | publishAgreement => exact Tells.ofResult (fun _ => isOwn_of_publish) fun _ => follows_publish
  | confirmAgreement =>
    obtain ⟨agreement, hagreement⟩ := Option.isSome_iff_exists.1 (hs rfl)
    rw [Negotiation.step, hagreement, hn]
    exact Tells.bind (Tells.sendContract henv .contractAgreements _)
      fun reply _ _ _ => Tells.pure ⟨hn.symm, by rw [hagreement]; rfl⟩

theorem Tells.advance (henv : env.transport = c.transport) (steps : List NegotiationStep) :
    ∀ {n : Negotiation} {r : Run σ}, n.recipient = c.recipient →
      confirmable n.agreement.isSome steps = true →
      c.Tells (Negotiation.advance env x n steps) (fun _ _ => True) r := by
  induction steps with
  | nil => exact fun _ _ => Tells.pure trivial
  | cons s rest ih =>
    intro n r hn hsteps
    have hs : s = .confirmAgreement → n.agreement.isSome = true := by
      rintro rfl
      exact (Bool.and_eq_true_iff.1 hsteps).1
    obtain ⟨answers, hanswered, htold⟩ := Tells.step henv hn s hs (x := x) (r := r)
    unfold Tells
    unfold outcome after at *
    cases hperform : perform (Negotiation.step env x n s) r with
    | mk result r' =>
      rw [hperform] at hanswered htold
      cases result with
      | error err =>
        rw [perform_advance_error hperform]
        exact ⟨answers, hanswered.extended _ _, htold.error _⟩
      | ok n' =>
        rw [perform_advance_ok hperform]
        cases htold with
        | returned passes follows =>
          -- an agreement is there after validation, and it stays
          have hrest : confirmable n'.agreement.isSome rest = true := by
            rw [follows.agreed]
            cases s with
            | confirmAgreement => exact (Bool.and_eq_true_iff.1 hsteps).2
            | sendRequest | extractAgreement | validateAgreement | publishAgreement => exact hsteps
          obtain ⟨more, hmore, htold'⟩ := ih (r := r'.extended _)
            (follows.recipient.trans hn) hrest
          have hboth : Told c.recipient c.records (fun _ _ => True) (answers ++ more) _ :=
            Told.behind passes htold'
          exact ⟨answers ++ more, (hanswered.extended _ _).trans hmore, hboth⟩

theorem Tells.run (henv : env.transport = c.transport) (confirms : Bool) (request : Contract) :
    c.Tells (Negotiation.run env x (usualSteps confirms) c.recipient request)
      (fun _ _ => True) r := by
  have hadvance : c.Tells
      (Negotiation.advance env x (.start c.recipient request) (usualSteps confirms))
      (fun _ _ => True) r :=
    Tells.advance henv _ rfl (confirmable_usualSteps confirms)
  exact Tells.bind hadvance fun n _ _ _ => Tells.note_bind fun _ => Tells.pure trivial

theorem Tells.storeAgreement (uuidAt : Nat → Uuid) (agreement : Contract) :
    c.Tells (storeAgreement uuidAt agreement) (fun _ _ => True) r := by
  refine ⟨[], answered_storeAgreement _ _ uuidAt agreement r, ?_⟩
  rw [outcome, perform_storeAgreement]
  exact .returned (List.forall_mem_nil _) trivial

end Scene

end Dataspace
