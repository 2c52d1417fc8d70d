import Dataspace.Proofs.Congruence
import Dataspace.Proofs.NegotiationSteps

/-!
# The chronicle of a run

Two facts about the chronicle that hold of whatever a connector does. Its requests and saves
(`Run.traffic`) come from the exchanges and saves alone; notes add nothing to them. And nothing ever
looks at the chronicle: an action does the same behind any other chronicle (`Exchange.Blind`), so
that what was said before has no influence on what is done.
-/

namespace Dataspace

open Exchange

variable {σ : Type}

/-! ## Requests and saves -/

/-- What a connector asks for, draws or says beside its requests and saves is no traffic. -/
def Event.isTraffic : Event → Bool
  | .sent _ | .saved _ => true
  | _ => false

/-- The requests and saves of a run, in their order. -/
def Run.traffic (r : Run σ) : List Event :=
  r.events.filter Event.isTraffic

@[simp] theorem Event.filter_isTraffic_ofNotes (component : Component) (notes : List Note) :
    (Event.ofNotes component notes).filter Event.isTraffic = [] := by
  unfold Event.ofNotes
  apply List.filter_eq_nil_iff.2
  intro event hevent
  obtain ⟨n, -, rfl⟩ := List.mem_map.1 hevent
  exact Bool.false_ne_true

@[simp] theorem Run.traffic_extended (r : Run σ) (events : List Event) :
    (r.extended events).traffic = r.traffic ++ events.filter Event.isTraffic :=
  List.filter_append _ _

@[simp] theorem Service.traffic_exchanged (env : Surroundings σ) (s : Service) (d : Descriptor)
    (payload : Payload) (r : Run σ) :
    (s.exchanged env d payload r).traffic =
      r.traffic ++ [.sent (s.callAt env d payload r.asked r.drawn)] := by
  simp [Run.traffic, Service.exchangeEvents, List.filter_cons, Event.isTraffic]

theorem Exchange.traffic_save (p : Persistence σ) (s : Save) (r : Run σ) :
    (after (save p s) r).traffic = r.traffic ++ [.saved s] := by
  rw [after, perform_save]
  show (r.events ++ _).filter Event.isTraffic = _
  rw [List.filter_append, List.filter_cons, Event.filter_isTraffic_ofNotes]
  rfl

/-- Messages are part of the traffic. -/
theorem Run.calls_eq_traffic (r : Run σ) : r.calls = r.traffic.filterMap Event.call? := by
  unfold calls traffic
  rw [List.filterMap_filter]
  have hcall : Event.call? = fun event => if event.isTraffic then event.call? else none := by
    funext event
    cases event <;> rfl
  rw [← hcall]

/-! ## What was said before -/

/-- The same point of a run, with more in front of its chronicle. -/
def Run.behind (earlier : List Event) (r : Run σ) : Run σ :=
  { r with events := earlier ++ r.events }

/-- The same point of a run, with an empty chronicle. -/
def Run.silent (r : Run σ) : Run σ :=
  { r with events := [] }

theorem Run.behind_silent (r : Run σ) : r.silent.behind r.events = r := by
  show ({ r with events := r.events ++ [] } : Run σ) = r
  rw [List.append_nil]

theorem Run.extended_behind (r : Run σ) (earlier events : List Event) :
    (r.behind earlier).extended events = (r.extended events).behind earlier := by
  unfold extended behind
  simp only [List.append_assoc]

/-- Putting events behind a chronicle is putting the chronicle and them in front of nothing. -/
theorem Run.extended_eq_behind (r : Run σ) (events : List Event) :
    r.extended events = r.silent.behind (r.events ++ events) := by
  show _ = ({ r with events := r.events ++ events ++ [] } : Run σ)
  rw [List.append_nil]
  rfl

namespace Exchange

variable {α β : Type}

/-- The action does the same behind any chronicle. -/
def Blind (x : Exchange σ α) : Prop :=
  ∀ earlier r, perform x (r.behind earlier) =
    ((perform x r).1, (perform x r).2.behind earlier)

theorem Blind.pure (a : α) : Blind (Pure.pure a : Exchange σ α) :=
  fun _ _ => rfl

theorem Blind.throw (e : Error) : Blind (MonadExcept.throw e : Exchange σ α) :=
  fun _ _ => rfl

theorem Blind.bind {x : Exchange σ α} {f : α → Exchange σ β} (hx : Blind x)
    (hf : ∀ a, Blind (f a)) : Blind (x >>= f) := by
  intro earlier r
  have hfirst := hx earlier r
  rw [perform_bind, perform_bind, hfirst]
  cases perform x r with
  | mk result r' =>
    cases result with
    | error e => rfl
    -- the first action has left the same chronicle in front of where the second begins
    | ok a => exact hf a earlier r'

theorem Blind.attempt {x : Exchange σ α} (hx : Blind x) : Blind (attempt x) := by
  intro earlier r
  rw [perform_attempt, perform_attempt, hx earlier r]

theorem Blind.say (component : Component) (notes : List Note) :
    Blind (σ := σ) (say component notes) := by
  intro earlier r
  rw [perform_say, perform_say, Run.extended_behind]

theorem Blind.congruence : Congruence (σ := σ) fun x _ => Blind x where
  pure := Blind.pure
  throw := Blind.throw
  bind := Blind.bind
  attempt := Blind.attempt
  say := fun component notes _ => Blind.say component notes

theorem Blind.save (p : Persistence σ) (s : Save) : Blind (save p s) := by
  intro earlier r
  rw [perform_save, perform_save]
  unfold Run.behind
  simp only [List.append_assoc]

theorem Blind.keep (p : Persistence σ) (errand : Download.Errand) (reply : Response) :
    Blind (Download.keep p errand reply) :=
  Blind.congruence.keep (fun component _ => Blind.say component _) (Blind.save p) errand reply

theorem Blind.sendAndValidate (env : Surroundings σ) (s : Service) (d : Option Descriptor)
    (payload : Payload) : Blind (s.sendAndValidate env d payload) := by
  intro earlier r
  cases h : s.profile.accept d with
  | error flaw =>
    rw [Service.perform_sendAndValidate_refused env h,
      Service.perform_sendAndValidate_refused env h]
  | ok d' =>
    cases d with
    | none => cases h
    | some d =>
      cases Profile.eq_of_accept h
      rw [Service.perform_sendAndValidate env h, Service.perform_sendAndValidate env h]
      unfold Service.exchanged Run.behind
      simp only [List.append_assoc]
      rfl

end Exchange

end Dataspace
