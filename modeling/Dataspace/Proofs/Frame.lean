import Dataspace.Proofs.Congruence
import Dataspace.Proofs.NegotiationSteps

/-!
# What actions leave alone

`Keeps view x` says that the action `x` leaves one side of the run as it is, whatever it ends with
and wherever it begins. It holds of a sequence if it holds of the parts, so that for an action made
of smaller ones nothing has to be run: the exchanges with a peer and with the store are looked at
once, and everything above them follows its own text (`Keeps.congruence`).

The book of agreements is such a side: only `storeAgreement` touches it, so the steps of a
negotiation and all downloads keep it.
-/

namespace Dataspace

namespace Exchange

variable {σ α β γ : Type} {view : Run σ → γ}

/-- The action leaves this side of the run as it is. -/
def Keeps (view : Run σ → γ) (x : Exchange σ α) : Prop :=
  ∀ r, view (after x r) = view r

theorem Keeps.pure (a : α) : Keeps view (Pure.pure a : Exchange σ α) :=
  fun _ => rfl

theorem Keeps.throw (e : Error) : Keeps view (MonadExcept.throw e : Exchange σ α) :=
  fun _ => rfl

/-- What the second part of a sequence keeps is as the first part left it. -/
theorem Keeps.after_bind {f : α → Exchange σ β} (hf : ∀ a, Keeps view (f a)) (x : Exchange σ α)
    (r : Run σ) : view (after (x >>= f) r) = view (after x r) := by
  unfold after
  rw [perform_bind]
  obtain ⟨result, r'⟩ := perform x r
  cases result with
  | error e => rfl
  | ok a => exact hf a r'

/-- A sequence keeps what both parts keep. -/
theorem Keeps.bind {x : Exchange σ α} {f : α → Exchange σ β} (hx : Keeps view x)
    (hf : ∀ a, Keeps view (f a)) : Keeps view (x >>= f) :=
  fun r => (Keeps.after_bind hf x r).trans (hx r)

theorem Keeps.attempt {x : Exchange σ α} (hx : Keeps view x) : Keeps view (attempt x) := by
  intro r
  rw [after, perform_attempt]
  exact hx r

/-- A view for which nothing that is said counts. -/
def Deaf (view : Run σ → γ) : Prop :=
  ∀ r component notes, view (r.extended (Event.ofNotes component notes)) = view r

theorem Keeps.congruence (hview : Deaf view) : Congruence (σ := σ) fun x _ => Keeps view x where
  pure := Keeps.pure
  throw := Keeps.throw
  bind := Keeps.bind
  attempt := Keeps.attempt
  say := fun component notes _ r => hview r component notes

theorem Keeps.keep {p : Persistence σ} (hview : Deaf view)
    (hsave : ∀ s, Keeps view (save p s)) (errand : Download.Errand) (reply : Response) :
    Keeps view (Download.keep p errand reply) :=
  (Keeps.congruence hview).keep (fun component _ r => hview r component _) hsave errand reply

/-! ## The book of agreements -/

/-- A save changes the shelves or the surroundings. -/
theorem Keeps.book_save (p : Persistence σ) (s : Save) : Keeps Run.book (save p s) := by
  intro r
  rw [after, perform_save]

theorem Keeps.book_findAgreement (service : AgreementService) (id : String) :
    Keeps (σ := σ) Run.book (findAgreement service id) :=
  fun r => congrArg Run.book (after_findAgreement service id r)

end Exchange

open Exchange

variable {σ γ : Type} {view : Run σ → γ}

/-- A view that an exchange with the peer does not change. A refused descriptor leaves all as it is
anyway. -/
theorem Service.keeps_sendAndValidate {env : Surroundings σ} {s : Service}
    (hview : ∀ d payload r, view (s.exchanged env d payload r) = view r) (d : Option Descriptor)
    (payload : Payload) : Keeps view (s.sendAndValidate env d payload) := by
  intro r
  cases h : s.profile.accept d with
  | error flaw => rw [after, Service.perform_sendAndValidate_refused env h]
  | ok d' =>
    cases d with
    | none => cases h
    | some d =>
      cases Profile.eq_of_accept h
      rw [after, Service.perform_sendAndValidate env h]
      exact hview _ payload r

/-- Whatever steps a negotiation has, it keeps every view for which neither what is said nor an
exchange counts. -/
theorem Negotiation.keeps_run {env : Surroundings σ} (hview : Deaf view)
    (hexchange : ∀ (s : Service) d payload r, view (s.exchanged env d payload r) = view r)
    (x : Examiner) (steps : List NegotiationStep) (recipient : String) (request : Contract) :
    Keeps view (run env x steps recipient request) :=
  (Keeps.congruence hview).run env
    (fun s d payload _ _ => Service.keeps_sendAndValidate (hexchange s) (some d) payload)
    x steps recipient request

end Dataspace
