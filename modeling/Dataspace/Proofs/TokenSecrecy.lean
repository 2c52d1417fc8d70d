import Dataspace.Proofs.HttpNegotiation
import Dataspace.Proofs.Redaction

/-!
# The security token leaves no trace

The peer has to see the security token of a connector, and nobody else may. What a connector returns
and raises, logs, keeps and stores could give it away, so this is about two runs with different
tokens in the same surroundings: nothing but the token in the messages tells one from the other.

`view` is what can be seen of the surroundings without the token. Collaborators are discreet if
their answers depend on no more than that (`Transport.Discreet`, `Persistence.Discreet`).

* **`Exchange.Alike.bind`** — two actions cannot be told apart if their parts cannot.
* **`Exchange.Alike.sendAndValidate`** — the one place where an identity is asked for.
* **`Http.Network.Discreet.transport`** — messages over HTTP give away no more than the peer does.
* **`token_leaves_no_trace`** — the two runs of an engine.
-/

namespace Dataspace

open Exchange

variable {σ τ : Type} {view : σ → τ}

/-! ## Collaborators -/

structure Outcome.Alike {α : Type} (view : σ → τ) (out out' : Outcome σ α) : Prop where
  result : out.result = out'.result
  notes : out.notes = out'.notes
  world : view out.world = view out'.world

/-- The answers do not depend on the token in a message. -/
structure Transport.Discreet (view : σ → τ) (t : Transport σ) : Prop where
  send : ∀ {c c' : Call} {w w' : σ}, c.redacted = c'.redacted → view w = view w' →
    (t.send c w).Alike view (t.send c' w')
  close : ∀ {release : σ → σ}, t.close = some release → ∀ {w w' : σ}, view w = view w' →
    view (release w) = view (release w')

/-- What a store does depends on what is seen of the surroundings. -/
def Persistence.Discreet (view : σ → τ) : Persistence σ → Prop
  | .inMemory hindrance => ∀ s {w w' : σ}, view w = view w' →
    (hindrance s w).1 = (hindrance s w').1 ∧ view (hindrance s w).2 = view (hindrance s w').2
  | .external _ store => ∀ s {w w' : σ}, view w = view w' → (store s w).Alike view (store s w')

theorem Persistence.Discreet.take {p : Persistence σ} (h : p.Discreet view) (s : Save) {w w' : σ}
    (hw : view w = view w') (shelves : Shelves) :
    (p.take s w shelves).Alike (fun place => (view place.1, place.2)) (p.take s w' shelves) := by
  cases p with
  | external name store =>
    have halike := h s hw
    exact ⟨halike.result, halike.notes, congrArg (·, shelves) halike.world⟩
  | inMemory hindrance =>
    obtain ⟨hobstacle, hworld⟩ := h s hw
    dsimp only [Persistence.take]
    generalize hindrance s w = found at *
    generalize hindrance s w' = found' at *
    obtain ⟨obstacle, v⟩ := found
    obtain ⟨obstacle', v'⟩ := found'
    obtain rfl : obstacle = obstacle' := hobstacle
    -- the shelves are the same, and so is what they make of the reply
    cases obstacle with
    | some e => exact ⟨rfl, rfl, congrArg (·, shelves) hworld⟩
    | none =>
      simp only
      cases shelves.save s with
      | error e => exact ⟨rfl, rfl, congrArg (·, shelves) hworld⟩
      | ok shelves' => exact ⟨rfl, rfl, congrArg (·, shelves') hworld⟩

/-! ## Actions that cannot be told apart -/

namespace Exchange

variable {α β : Type}

/-- From points of two runs that are alike, the actions end alike and the runs stay alike. -/
def Alike (view : σ → τ) (x y : Exchange σ α) : Prop :=
  ∀ ⦃r r' : Run σ⦄, r.Alike view r' →
    outcome x r = outcome y r' ∧ (after x r).Alike view (after y r')

theorem Alike.pure (a : α) : Alike view (Pure.pure a : Exchange σ α) (Pure.pure a) :=
  fun _ _ h => ⟨rfl, h⟩

theorem Alike.throw (e : Error) :
    Alike view (MonadExcept.throw e : Exchange σ α) (MonadExcept.throw e) :=
  fun _ _ h => ⟨rfl, h⟩

/-- **Sequences cannot be told apart if their parts cannot.** The first parts end with the same
value, so that the second ones go on from it alike. -/
theorem Alike.bind {x y : Exchange σ α} {f g : α → Exchange σ β} (h : Alike view x y)
    (hf : ∀ a, Alike view (f a) (g a)) : Alike view (x >>= f) (y >>= g) := by
  intro r r' hr
  obtain ⟨houtcome, hafter⟩ := h hr
  unfold outcome after at *
  rw [perform_bind, perform_bind]
  generalize perform x r = found at *
  generalize perform y r' = found' at *
  obtain ⟨result, r₁⟩ := found
  obtain ⟨result', r₁'⟩ := found'
  simp only at houtcome hafter
  subst houtcome
  cases result with
  | error e => exact ⟨rfl, hafter⟩
  | ok a => exact hf a hafter

theorem Alike.attempt {x y : Exchange σ α} (h : Alike view x y) :
    Alike view (attempt x) (attempt y) := by
  intro r r' hr
  obtain ⟨houtcome, hafter⟩ := h hr
  exact ⟨congrArg Except.ok houtcome, hafter⟩

theorem Alike.say (component : Component) (notes : List Note) :
    Alike (σ := σ) view (say component notes) (say component notes) :=
  fun _ _ h => ⟨rfl, h.extended _⟩

theorem Alike.congruence : Congruence (σ := σ) fun x y => Alike view x y where
  pure := Alike.pure
  throw := Alike.throw
  bind := Alike.bind
  attempt := Alike.attempt
  say := fun component notes _ => Alike.say component notes

theorem Alike.save {p : Persistence σ} (hp : p.Discreet view) (s : Save) :
    Alike view (save p s) (save p s) := by
  intro r r' h
  have htake := hp.take s h.world r.shelves
  obtain ⟨hworld, hshelves⟩ := Prod.mk.inj htake.world
  rw [outcome, outcome, after, after, perform_save, perform_save, ← h.shelves]
  refine ⟨htake.result, ?_⟩
  exact
    { world := hworld
      shelves := hshelves
      book := h.book
      asked := h.asked
      drawn := h.drawn
      events := by simp only [List.map_append, h.events, htake.notes] }

theorem Alike.keep {p : Persistence σ} (hp : p.Discreet view) (errand : Download.Errand)
    (reply : Response) : Alike view (Download.keep p errand reply) (Download.keep p errand reply) :=
  Alike.congruence.keep (fun component _ => Alike.say component _) (Alike.save hp) errand reply

theorem Alike.findAgreement (service : AgreementService) (id : String) :
    Alike (σ := σ) view (findAgreement service id) (findAgreement service id) := by
  cases service with
  | inMemory =>
    intro r r' h
    rw [outcome, outcome, after, after, perform_findAgreement, perform_findAgreement, h.book]
    exact ⟨rfl, h⟩
  | lookup find => exact Alike.congruence.ofResult _

theorem Alike.storeAgreement (uuidAt : Nat → Uuid) (agreement : Contract) :
    Alike (σ := σ) view (storeAgreement uuidAt agreement) (storeAgreement uuidAt agreement) := by
  intro r r' h
  rw [outcome, outcome, after, after, perform_storeAgreement, perform_storeAgreement, ← h.drawn,
    ← h.book]
  refine ⟨rfl, ?_⟩
  exact
    { world := h.world
      shelves := h.shelves
      book := rfl
      asked := h.asked
      drawn := rfl
      events := by simp only [List.map_append, h.events] }

end Exchange

/-! ## One message -/

section Message

variable {env : Surroundings σ} {i i' : IdentitySource}

theorem Service.alike_answerAt (hi : i.SameButTokens i') (ht : env.transport.Discreet view)
    (s : Service) (d : Descriptor) (payload : Payload) {r r' : Run σ} (h : r.Alike view r') :
    (s.answerAt (env.knownAs i) d payload r).Alike view
      (s.answerAt (env.knownAs i') d payload r') := by
  refine ht.send ?_ h.world
  rw [h.asked, h.drawn]
  exact Service.redacted_callAt env hi s d payload r'.asked r'.drawn

theorem Service.redacted_exchangeEvents (hi : i.SameButTokens i')
    (ht : env.transport.Discreet view) (s : Service) (d : Descriptor) (payload : Payload)
    {r r' : Run σ} (h : r.Alike view r') :
    (s.exchangeEvents (env.knownAs i) d payload r).map Event.redacted =
      (s.exchangeEvents (env.knownAs i') d payload r').map Event.redacted := by
  have hanswer := Service.alike_answerAt hi ht s d payload h
  have hcall := Service.redacted_callAt env hi s d payload r'.asked r'.drawn
  unfold Service.exchangeEvents
  rw [hanswer.result, hanswer.notes, h.asked, h.drawn]
  simp only [List.map_append, List.map_cons, Event.map_redacted_ofNotes, Event.redacted, hcall]
  -- what is left is the identity and what its source says of it
  simp only [Surroundings.knownAs, hi.redacted_whoAt, hi.notes_eq]

/-- **One message does not give its token away.** -/
theorem Exchange.Alike.sendAndValidate (hi : i.SameButTokens i')
    (ht : env.transport.Discreet view) (s : Service) (d : Option Descriptor) (payload : Payload) :
    Alike view (s.sendAndValidate (env.knownAs i) d payload)
      (s.sendAndValidate (env.knownAs i') d payload) := by
  intro r r' h
  unfold outcome after
  cases haccept : s.profile.accept d with
  | error flaw =>
    rw [Service.perform_sendAndValidate_refused _ haccept,
      Service.perform_sendAndValidate_refused _ haccept]
    exact ⟨rfl, h⟩
  | ok d' =>
    cases d with
    | none => cases haccept
    | some d =>
      rw [Profile.eq_of_accept haccept] at haccept
      have hanswer := Service.alike_answerAt hi ht s d payload h
      rw [Service.perform_sendAndValidate _ haccept, Service.perform_sendAndValidate _ haccept]
      refine ⟨congrArg (s.judged d.recipient) hanswer.result, ?_⟩
      exact
        { world := hanswer.world
          shelves := h.shelves
          book := h.book
          asked := congrArg (· + 1) h.asked
          drawn := congrArg (· + 1) h.drawn
          events := by
            simp only [Service.exchanged_events, List.map_append, h.events,
              Service.redacted_exchangeEvents hi ht s d payload h] }

end Message

/-! ## HTTP -/

/-- A net on which the token in a form has no influence on the reply. -/
structure Http.Network.Discreet (view : σ → τ) (net : Http.Network σ) : Prop where
  exchange : ∀ {c c' : Call} {w w' : σ}, c.redacted = c'.redacted → view w = view w' →
    (net.exchange (request (net.boundary w) c) w).1 =
        (net.exchange (request (net.boundary w') c') w').1 ∧
      view (net.exchange (request (net.boundary w) c) w).2 =
        view (net.exchange (request (net.boundary w') c') w').2
  connections : ∀ {w w' : σ}, view w = view w' → net.connections w = net.connections w'
  withConnections : ∀ connections {w w' : σ}, view w = view w' →
    view (net.withConnections connections w) = view (net.withConnections connections w')

/-- What is said of a reply over HTTP depends on the peer and on the reply only. -/
theorem Http.Network.Discreet.transport {net : Http.Network σ} (h : net.Discreet view) :
    (Http.transport net).Discreet view where
  send := by
    intro c c' w w' hc hw
    have hconnected : view (connected net w) = view (connected net w') := by
      unfold connected
      rw [h.connections hw]
      exact h.withConnections _ hw
    obtain ⟨hanswered, hworld⟩ := h.exchange hc hconnected
    have hrecipient : c.redacted.recipient = c'.redacted.recipient := congrArg _ hc
    have hreceived : receive c.recipient (answered net c w) =
        receive c'.recipient (answered net c' w') :=
      congr (congrArg receive hrecipient) hanswered
    exact ⟨congrArg Prod.fst hreceived, congrArg Prod.snd hreceived, hworld⟩
  close := by
    intro release hrelease w w' hw
    cases hrelease
    unfold Http.release
    rw [h.connections hw]
    exact h.withConnections _ hw

/-! ## Engines -/

/-- What an engine is used for: one of the operations, or to let go of its connections. -/
inductive Use where
  | operation (op : Operation)
  | close

namespace Engine

def knownAs (e : Engine σ) (i : IdentitySource) : Engine σ :=
  e.movedTo (e.toSurroundings.knownAs i)

theorem knownAs_transport (e : Engine σ) (i : IdentitySource) :
    (e.knownAs i).transport = e.transport :=
  rfl

def use (e : Engine σ) : Use → Exchange σ Product
  | .operation op => e.operate op
  | .close => do
    e.close
    return .nothing

/-- What one use after another ends with, and where the run stands then. A use that fails does not
keep the next one from beginning. -/
def used (e : Engine σ) : List Use → Run σ → List (Except Error Product) × Run σ
  | [], r => ([], r)
  | u :: rest, r =>
    (outcome (e.use u) r :: (e.used rest (after (e.use u) r)).1,
      (e.used rest (after (e.use u) r)).2)

variable {e : Engine σ} {i i' : IdentitySource}

/-- **No operation gives the token away.** -/
theorem alike_operate (hi : i.SameButTokens i') (ht : e.transport.Discreet view)
    (hp : e.persistence.Discreet view) (op : Operation) :
    Alike view ((e.knownAs i).operate op) ((e.knownAs i').operate op) := by
  have hsend : ∀ (s : Service) (d : Descriptor) payload, s.Usual → d.properties = .empty →
      Alike view (s.sendAndValidate (e.toSurroundings.knownAs i) (some d) payload)
        (s.sendAndValidate (e.toSurroundings.knownAs i') (some d) payload) :=
    fun s d payload _ _ => Alike.sendAndValidate hi ht s (some d) payload
  by_cases hop : op.IsDownload
  · exact congruent_download (e := e.knownAs i) Alike.congruence (e.toSurroundings.knownAs i') hsend
      (fun j reply _ => Alike.keep hp j.errand reply) (Alike.findAgreement e.agreements) hop
  · cases op with
    | negotiate recipient request =>
      exact Alike.bind (Alike.congruence.negotiate (e := e.knownAs i) (e.toSurroundings.knownAs i')
        hsend rfl (fun agreement => Alike.bind (Alike.storeAgreement e.uuidAt agreement)
          fun _ => Alike.pure agreement) recipient request) fun _ => Alike.pure _
    | downloadMetadata | downloadAppResource | downloadArtifacts | downloadAppArtifact =>
      exact absurd trivial hop

theorem alike_close (ht : e.transport.Discreet view) :
    Alike view (e.knownAs i).close (e.knownAs i').close := by
  unfold close
  simp only [knownAs_transport]
  cases hclose : e.transport.close with
  | none => exact Alike.pure _
  | some release =>
    refine Alike.bind (fun r r' h => ⟨rfl, ?_⟩) fun _ => Alike.say _ _
    exact { h with world := ht.close hclose h.world }

theorem alike_used (hi : i.SameButTokens i') (ht : e.transport.Discreet view)
    (hp : e.persistence.Discreet view) (uses : List Use) :
    ∀ {r r' : Run σ}, r.Alike view r' →
      ((e.knownAs i).used uses r).1 = ((e.knownAs i').used uses r').1 ∧
        ((e.knownAs i).used uses r).2.Alike view ((e.knownAs i').used uses r').2 := by
  have huse : ∀ u : Use, Alike view ((e.knownAs i).use u) ((e.knownAs i').use u) := by
    intro u
    cases u with
    | operation op => exact alike_operate hi ht hp op
    | close => exact Alike.bind (alike_close ht) fun _ => Alike.pure _
  induction uses with
  | nil => exact fun h => ⟨rfl, h⟩
  | cons u rest ih =>
    intro r r' h
    obtain ⟨houtcome, hafter⟩ := huse u h
    obtain ⟨hresults, hend⟩ := ih hafter
    exact ⟨List.cons_eq_cons.2 ⟨houtcome, hresults⟩, hend⟩

/-- **The security token leaves no trace.** Let an engine be used in any way, once under some
identity and once under one that differs from it in the tokens only, among collaborators on whom the
token has no influence. Then each use returns or raises the same, and in the end the same was
logged, the same agreements are known, the same was kept, the surroundings look the same, and the
messages that were handed to the transport differ in the security token alone. -/
theorem token_leaves_no_trace (e : Engine σ) {view : σ → τ} {i i' : IdentitySource}
    (hi : i.SameButTokens i') (ht : e.transport.Discreet view) (hp : e.persistence.Discreet view)
    (uses : List Use) (r : Run σ) :
    let once := (e.knownAs i).used uses r
    let again := (e.knownAs i').used uses r
    once.1 = again.1 ∧
    once.2.log = again.2.log ∧
    once.2.book = again.2.book ∧
    once.2.shelves = again.2.shelves ∧
    view once.2.world = view again.2.world ∧
    once.2.calls.map Call.redacted = again.2.calls.map Call.redacted := by
  intro once again
  obtain ⟨hresults, hend⟩ := alike_used hi ht hp uses (Run.Alike.refl r)
  exact ⟨hresults, hend.log_eq, hend.book, hend.shelves, hend.world, hend.calls_eq⟩

/-- Two tokens, and a peer out of service: what was sent shows which of them it is, and nothing else
does. -/
theorem token_leaves_no_trace_over_http :
    let e := { withGrantingPeer (.plain "urn:a") with
      transport := Http.transport (.answering ⟨503, none, []⟩) }
    let uses : List Use := [.operation (.negotiate "https://peer" (.plain "urn:r")), .close,
      .operation (.downloadAppArtifact "https://peer" "urn:app")]
    let knownBy := fun token => (e.knownAs (.settled "urn:me" "4.2.7" fun _ => token)).used uses
      (.start () .empty)
    (knownBy "one").1 = (knownBy "two").1 ∧ (knownBy "one").2.log = (knownBy "two").2.log ∧
      (knownBy "one").2.calls.map Call.redacted = (knownBy "two").2.calls.map Call.redacted ∧
      (knownBy "one").2.calls ≠ (knownBy "two").2.calls := by
  intro e uses knownBy
  have hnet : ∀ reply, (Http.Network.answering reply).Discreet id := fun reply =>
    { exchange := fun _ hw => ⟨rfl, hw⟩
      connections := fun _ => rfl
      withConnections := fun _ _ _ hw => hw }
  have htokens : (IdentitySource.settled "urn:me" "4.2.7" fun _ => "one").SameButTokens
      (.settled "urn:me" "4.2.7" fun _ => "two") := .settled fun _ => by decide
  have htrace := token_leaves_no_trace e htokens (hnet _).transport (fun _ _ _ hw => ⟨rfl, hw⟩) uses
    (.start () .empty)
  exact ⟨htrace.1, htrace.2.1, htrace.2.2.2.2.2, by decide +kernel⟩

end Engine

end Dataspace
