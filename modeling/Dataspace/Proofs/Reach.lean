import Dataspace.Proofs.Session

/-!
# Where an engine can get to

An engine makes remarks, exchanges messages with its peers, hands replies to its store and enters
agreements into its book, and it does nothing else. `Engine.Reaches` says of two points of a run
that the second can be got to from the first in these four ways. What each of the four preserves is
preserved by every operation (`reaches_operate`) and by every session (`reaches_session`), whatever
they end with and wherever they are broken off.
-/

namespace Dataspace

open Exchange

variable {σ : Type}

namespace Engine

inductive Reaches (e : Engine σ) (r : Run σ) : Run σ → Prop
  | refl : Reaches e r r
  | remark {r' : Run σ} (h : Reaches e r r') {component : Component} {notes : List Note}
      (remark : Remark component notes) : Reaches e r (r'.extended (Event.ofNotes component notes))
  | exchange {r' : Run σ} (h : Reaches e r r') {s : Service} {d : Descriptor} (usual : s.Usual)
      (plain : d.properties = .empty) (accepted : s.profile.accept (some d) = .ok d)
      (payload : Payload) : Reaches e r (s.exchanged e.toSurroundings d payload r')
  | keep {r' : Run σ} (h : Reaches e r r') {j : Download.Job} (usual : j.Usual) (reply : Response) :
      Reaches e r (after (Download.keep e.persistence j.errand reply) r')
  | enter {r' : Run σ} (h : Reaches e r r') (agreement : Contract) :
      Reaches e r (after (storeAgreement e.uuidAt agreement) r')

variable {e : Engine σ} {r r' r'' : Run σ}

theorem Reaches.trans (h : e.Reaches r r') (h' : e.Reaches r' r'') : e.Reaches r r'' := by
  induction h' with
  | refl => exact h
  | remark _ remark ih => exact ih.remark remark
  | exchange _ usual plain accepted payload ih => exact ih.exchange usual plain accepted payload
  | keep _ usual reply ih => exact ih.keep usual reply
  | enter _ agreement ih => exact ih.enter agreement

/-! ## Actions -/

/-- From wherever the action begins, it ends where the engine can get to. -/
def Stays {α : Type} (e : Engine σ) (x : Exchange σ α) : Prop :=
  ∀ r, e.Reaches r (after x r)

variable {α β : Type}

theorem Stays.bind {x : Exchange σ α} {f : α → Exchange σ β} (hx : e.Stays x)
    (hf : ∀ a, e.Stays (f a)) : e.Stays (x >>= f) := by
  intro r
  have hfirst := hx r
  unfold after at *
  rw [perform_bind]
  generalize perform x r = found at hfirst ⊢
  obtain ⟨result, r'⟩ := found
  cases result with
  | error err => exact hfirst
  | ok a => exact hfirst.trans (hf a r')

theorem Stays.congruence : Congruence (σ := σ) fun x _ => e.Stays x where
  pure := fun _ _ => .refl
  throw := fun _ _ => .refl
  bind := Stays.bind
  attempt := fun h r => h r
  say := fun _ _ remark _ => .remark .refl remark

/-- A refused descriptor leaves the run where it is, an accepted one makes an exchange. -/
theorem stays_sendAndValidate {s : Service} {d : Descriptor} (usual : s.Usual)
    (plain : d.properties = .empty) (payload : Payload) :
    e.Stays (s.sendAndValidate e.toSurroundings (some d) payload) := by
  intro r
  cases haccept : s.profile.accept (some d) with
  | error flaw =>
    rw [after, Service.perform_sendAndValidate_refused e.toSurroundings haccept]
    exact .refl
  | ok d' =>
    cases Profile.eq_of_accept haccept
    rw [after, Service.perform_sendAndValidate e.toSurroundings haccept]
    exact .exchange .refl usual plain haccept payload

theorem stays_findAgreement (id : String) : e.Stays (findAgreement e.agreements id) := by
  intro r
  rw [after_findAgreement]
  exact .refl

theorem stays_storeAgreement (agreement : Contract) :
    e.Stays (storeAgreement e.uuidAt agreement) :=
  fun _ => .enter .refl agreement

/-! ## Operations and sessions -/

theorem stays_operate (e : Engine σ) (op : Operation) : e.Stays (e.operate op) := by
  have hsend : ∀ (s : Service) (d : Descriptor) payload, s.Usual → d.properties = .empty →
      e.Stays (s.sendAndValidate e.toSurroundings (some d) payload) :=
    fun _ _ payload usual plain => stays_sendAndValidate usual plain payload
  have hkeep : ∀ (j : Download.Job) reply, j.Usual →
      e.Stays (Download.keep e.persistence j.errand reply) :=
    fun _ reply usual _ => .keep .refl usual reply
  by_cases hop : op.IsDownload
  · exact congruent_download Stays.congruence e.toSurroundings hsend hkeep stays_findAgreement hop
  · cases op with
    | negotiate recipient request =>
      have hnegotiate : e.Stays (e.negotiate recipient request) :=
        Stays.congruence.negotiate e.toSurroundings hsend rfl
          (fun agreement => (stays_storeAgreement agreement).bind fun _ _ => .refl)
          recipient request
      exact hnegotiate.bind fun _ _ => .refl
    | downloadMetadata | downloadAppResource | downloadArtifacts | downloadAppArtifact =>
      exact absurd trivial hop

/-- **An operation gets to no other points of a run.** -/
theorem reaches_operate (e : Engine σ) (op : Operation) (r : Run σ) :
    e.Reaches r (after (e.operate op) r) :=
  stays_operate e op r

theorem reaches_session (e : Engine σ) (ops : List Operation) :
    ∀ r, e.Reaches r (e.session ops r) := by
  induction ops with
  | nil => exact fun _ => .refl
  | cons op rest ih => exact fun r => (reaches_operate e op r).trans (ih _)

end Engine

end Dataspace
