import Dataspace.Proofs.Jobs
import Dataspace.Proofs.Messages

/-!
# Along the text of an action

Everything that an engine does is made of exchanges with a peer, saves, looks into the book,
remarks, and of what `pure`, `throw`, `attempt` and sequences make of these. A relation between
actions that sequences keep (`Congruence`) therefore relates two engines in all that they do if it
relates their exchanges. A property of actions is such a relation, in which the second action does
not matter.

The text of the operations is followed here once, for all these relations: for the steps of a
negotiation (`Congruence.advance`), for the jobs of a download (`Congruence.carryOutAll`), and for
a negotiation of an engine that is moved to other surroundings (`Engine.movedTo`).
-/

namespace Dataspace

open Exchange

variable {σ : Type}

/-! ## What an engine says and sends -/

/-- What is said of an operation as a whole. Nothing that is said of one message or of one save is
among these. -/
def LogRecord.isRemark (record : LogRecord) : Bool :=
  match record.component with
  | .engine | .negotiation | .examination => true
  | .artifacts | .metadata => decide (record.level = .info)
  | .assembly | .identity | .messaging | .memory | .transport => false

def Exchange.Remark (component : Component) (notes : List Note) : Prop :=
  ∀ n ∈ notes, (n.by component).isRemark = true

theorem Exchange.Remark.note {component : Component} {n : Note}
    (h : (n.by component).isRemark = true) : Remark component [n] :=
  List.forall_mem_singleton.2 h

namespace Download.Job.Usual

variable {j : Job}

theorem service (h : j.Usual) : j.service.Usual := by
  cases h with
  | metadata depth | appResource depth => exact .descriptions depth
  | artifact | appArtifact => exact .artifacts

theorem properties (h : j.Usual) : j.descriptor.properties = .empty := by
  cases h with
  | metadata | appResource | artifact | appArtifact => rfl

end Download.Job.Usual

/-! ## Relations that sequences keep -/

/-- A relation between actions that sequences keep. -/
structure Exchange.Congruence (R : ∀ {α : Type}, Exchange σ α → Exchange σ α → Prop) : Prop where
  pure : ∀ {α : Type} (a : α), R (Pure.pure a) (Pure.pure a)
  throw : ∀ {α : Type} (e : Error),
    R (MonadExcept.throw e : Exchange σ α) (MonadExcept.throw e)
  bind : ∀ {α β : Type} {x y : Exchange σ α} {f g : α → Exchange σ β},
    R x y → (∀ a, R (f a) (g a)) → R (x >>= f) (y >>= g)
  attempt : ∀ {α : Type} {x y : Exchange σ α}, R x y → R (attempt x) (attempt y)
  say : ∀ (component : Component) (notes : List Note), Remark component notes →
    R (say component notes) (say component notes)

/-- The same engine in other surroundings. -/
def Engine.movedTo (e : Engine σ) (env : Surroundings σ) : Engine σ :=
  { e with toSurroundings := env }

namespace Exchange.Congruence

variable {R : ∀ {α : Type}, Exchange σ α → Exchange σ α → Prop} (h : Congruence R)

include h

theorem note {level : Level} {component : Component} {text : String}
    (hremark : (Note.by component (level, text)).isRemark = true) :
    R (note level component text) (note level component text) :=
  h.say component _ (.note hremark)

theorem ofResult {α : Type} (result : Except Error α) : R (ofResult result) (ofResult result) := by
  cases result with
  | ok a => exact h.pure a
  | error e => exact h.throw e

/-! ## Negotiations -/

section Negotiations

variable {env : Surroundings σ} (env' : Surroundings σ)
  (hsend : ∀ (s : Service) (d : Descriptor) payload, s.Usual → d.properties = .empty →
    R (s.sendAndValidate env (some d) payload) (s.sendAndValidate env' (some d) payload))

include hsend

theorem step (x : Examiner) (n : Negotiation) (s : NegotiationStep) :
    R (Negotiation.step env x n s) (Negotiation.step env' x n s) := by
  cases s with
  | sendRequest => exact h.bind (hsend _ _ _ .contractRequests rfl) fun _ => h.pure _
  | extractAgreement => exact h.ofResult _
  | validateAgreement =>
    unfold Negotiation.step
    obtain ⟨result, notes⟩ := x.examine n.body n.request
    exact h.bind (h.say _ _ fun _ _ => rfl) fun _ =>
      h.bind (h.ofResult _) fun _ => h.pure _
  | publishAgreement => exact h.ofResult _
  | confirmAgreement =>
    unfold Negotiation.step
    cases n.agreement with
    | none => exact h.throw _
    | some agreement => exact h.bind (hsend _ _ _ .contractAgreements rfl) fun _ => h.pure _

theorem advance (x : Examiner) (steps : List NegotiationStep) :
    ∀ n : Negotiation,
      R (Negotiation.advance env x n steps) (Negotiation.advance env' x n steps) := by
  -- the negotiation changes from step to step, so the induction is for all of them
  induction steps with
  | nil => exact fun n => h.pure n
  | cons s rest ih =>
    intro n
    unfold Negotiation.advance
    refine h.bind (h.attempt (h.step env' hsend x n s)) fun result => ?_
    cases result with
    | error e => exact h.bind (h.note rfl) fun _ => h.throw _
    | ok n' => exact h.bind (h.note rfl) fun _ => ih n'

theorem run (x : Examiner) (steps : List NegotiationStep) (recipient : String)
    (request : Contract) :
    R (Negotiation.run env x steps recipient request)
      (Negotiation.run env' x steps recipient request) :=
  h.bind (h.advance env' hsend x steps _) fun _ => h.bind (h.note rfl) fun _ => h.pure _

/-- The record that an agreement gets in the book is no matter of the negotiation. -/
theorem negotiate {e : Engine σ} (he : e.toSurroundings = env)
    (hstore : ∀ agreement, R
      (do let _ ← storeAgreement env.uuidAt agreement
          return agreement)
      (do let _ ← storeAgreement env'.uuidAt agreement
          return agreement))
    (recipient : String) (request : Contract) :
    R (e.negotiate recipient request) ((e.movedTo env').negotiate recipient request) := by
  subst he
  refine h.bind (h.run env' hsend _ _ _ _) fun n => ?_
  refine h.bind ?_ fun agreement => ?_
  · unfold Engine.agreed
    cases n.agreement with
    | none => exact h.throw _
    | some agreement => exact h.pure _
  · simp only [Engine.movedTo]
    cases e.agreements with
    | inMemory => exact hstore agreement
    | lookup find => exact h.bind (h.note rfl) fun _ => h.pure _

end Negotiations

/-! ## Downloads -/

section Downloads

open Download

variable {p : Persistence σ}

/-- The warning of a failure to store is no remark, so that it has to be looked at together with
the save. -/
theorem keep (hwarn : ∀ component text, R (Exchange.note .warning component text)
      (Exchange.note .warning component text))
    (hsave : ∀ s, R (save p s) (save p s)) (errand : Errand) (reply : Response) :
    R (Download.keep p errand reply) (Download.keep p errand reply) := by
  refine h.bind (h.attempt (hsave _)) fun result => ?_
  cases result with
  | ok _ => exact h.pure _
  | error e =>
    simp only
    split
    · exact h.bind (hwarn _ _) fun _ => h.pure _
    · exact h.throw _

variable {env : Surroundings σ} (env' : Surroundings σ)
  (hsend : ∀ (s : Service) (d : Descriptor) payload, s.Usual → d.properties = .empty →
    R (s.sendAndValidate env (some d) payload) (s.sendAndValidate env' (some d) payload))
  (hkeep : ∀ (j : Job) reply, j.Usual →
    R (Download.keep p j.errand reply) (Download.keep p j.errand reply))

include hsend hkeep

theorem carryOut (records : Bool) {j : Job} (hj : j.Usual) :
    R (j.carryOut env p records) (j.carryOut env' p records) :=
  h.bind (hsend _ _ _ hj.service hj.properties) fun reply =>
    h.bind (hkeep j reply hj) fun _ => h.ofResult _

theorem carryOutAll (records : Bool) {jobs : List Job} (hjobs : ∀ j ∈ jobs, j.Usual) :
    R (Job.carryOutAll env p records jobs) (Job.carryOutAll env' p records jobs) := by
  induction jobs with
  | nil => exact h.pure _
  | cons j rest ih =>
    obtain ⟨hj, hrest⟩ := List.forall_mem_cons.1 hjobs
    exact h.bind (h.carryOut env' hsend hkeep records hj) fun _ =>
      h.bind (ih hrest) fun _ => h.pure _

end Downloads

end Exchange.Congruence

end Dataspace
