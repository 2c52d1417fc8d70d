import Dataspace.Message.Delivery
import Dataspace.Proofs.Exchange
import Dataspace.Proofs.Fields

/-!
# What one message does to a run

`Service.sendAndValidate` has two courses. A descriptor that the profile refuses ends it before
anything happened (`perform_sendAndValidate_refused`). An accepted one is sent exactly once
(`perform_sendAndValidate`): the message is `Service.callAt`, the transport answers it with
`Service.answerAt`, the result is what `Service.judged` makes of that answer, one identity was asked
for, one identifier was drawn, and the chronicle grows by `Service.exchangeEvents`. What stands in
the header of a message is what the message says of it (`Message.get?_header`), unless a property
has the same name (`Message.get?_header_layers`).
-/

namespace Dataspace

/-! ## Headers -/

namespace Message

variable {m : Message} {field : String}

/-- The fields of the message itself. -/
def ownFields (m : Message) : Header :=
  ((((Fields.ofPairs m.commonFields).putSome "ids:requestedElement" m.requestedElement).putSome
    "ids:requestedArtifact" m.requestedArtifact).putSome
    "ids:transferContract" m.transferContract)

/-- A property goes before a field of the message. -/
theorem get?_header_layers (m : Message) (field : String) :
    m.header.get? field = (m.properties.get? field).or (m.ownFields.get? field) :=
  Fields.get?_putAll m.properties.distinct m.ownFields

/-- A field that no property has taken the place of. -/
theorem get?_header (h : field ∉ m.properties.entries.map Prod.fst) :
    m.header.get? field = m.ownFields.get? field := by
  have hnone : m.properties.get? field = none := Entries.get?_eq_none h
  rw [get?_header_layers, hnone, Option.none_or]

/-- A field that every message has. -/
theorem get?_header_common
    (hsubject : field ∉ ["ids:requestedElement", "ids:requestedArtifact", "ids:transferContract"])
    (h : field ∉ m.properties.entries.map Prod.fst) :
    m.header.get? field = (Fields.ofPairs m.commonFields).get? field := by
  simp only [List.mem_cons, List.not_mem_nil, or_false, not_or] at hsubject
  obtain ⟨helement, hartifact, hcontract⟩ := hsubject
  rw [get?_header h, ownFields, Fields.get?_putSome_of_ne _ hcontract,
    Fields.get?_putSome_of_ne _ hartifact, Fields.get?_putSome_of_ne _ helement]

theorem get?_header_type (h : "@type" ∉ m.properties.entries.map Prod.fst) :
    m.header.get? "@type" = some m.kind.tag :=
  (get?_header_common (by decide) h).trans rfl

theorem get?_header_requestedElement
    (h : "ids:requestedElement" ∉ m.properties.entries.map Prod.fst) :
    m.header.get? "ids:requestedElement" = m.requestedElement := by
  rw [get?_header h, ownFields, Fields.get?_putSome_of_ne _ (by decide),
    Fields.get?_putSome_of_ne _ (by decide), Fields.get?_putSome_self]
  exact Option.or_none

theorem get?_header_requestedArtifact
    (h : "ids:requestedArtifact" ∉ m.properties.entries.map Prod.fst) :
    m.header.get? "ids:requestedArtifact" = m.requestedArtifact := by
  rw [get?_header h, ownFields, Fields.get?_putSome_of_ne _ (by decide), Fields.get?_putSome_self,
    Fields.get?_putSome_of_ne _ (by decide)]
  exact Option.or_none

theorem get?_header_transferContract
    (h : "ids:transferContract" ∉ m.properties.entries.map Prod.fst) :
    m.header.get? "ids:transferContract" = m.transferContract := by
  rw [get?_header h, ownFields, Fields.get?_putSome_self, Fields.get?_putSome_of_ne _ (by decide),
    Fields.get?_putSome_of_ne _ (by decide)]
  exact Option.or_none

end Message

namespace Service

open Exchange

variable {σ : Type}

/-- An empty text fills no field. -/
theorem filled_some (text : String) :
    filled (some text) = if text = "" then none else some text := by
  by_cases h : text = "" <;> simp [filled, h]

/-! ## The parts of one exchange -/

/-- The message that is handed to the transport after so many identities were asked for and so many
identifiers were drawn. -/
def callAt (env : Surroundings σ) (s : Service) (d : Descriptor) (payload : Payload)
    (asked drawn : Nat) : Call :=
  ⟨d.recipient,
    (s.message d (env.identity.whoAt asked) (env.uuidAt drawn) (env.clock asked)).header, payload⟩

/-- What the transport does with that message at a point of a run. -/
def answerAt (env : Surroundings σ) (s : Service) (d : Descriptor) (payload : Payload)
    (r : Run σ) : Outcome σ Response :=
  env.transport.send (s.callAt env d payload r.asked r.drawn) r.world

/-- What the sender makes of the transport's answer. -/
def judged (s : Service) (recipient : String) : Except Error Response → Except Error Response
  | .error e => .error (s.sendError recipient e)
  | .ok r => if s.accepts r then .ok r else .error (.unexpectedReply (s.unexpected r))

/-- What the sender says of the transport's answer. -/
def verdict (s : Service) (recipient : String) : Except Error Response → List Note
  | .error e => [(.error, s.logLine "FAIL" recipient (" | " ++ elapsed ++ " | " ++ e.message))]
  | .ok r =>
    (.info, s.logLine "OK  " recipient
      (" | " ++ elapsed ++ " | reply=" ++ shownOrNone r.kind)) ::
      (if s.accepts r then [] else [(.warning, s.unexpectedLine recipient r)])

/-- The events of one exchange, in their order. -/
def exchangeEvents (env : Surroundings σ) (s : Service) (d : Descriptor) (payload : Payload)
    (r : Run σ) : List Event :=
  .asked (env.identity.whoAt r.asked) ::
    Event.ofNotes .identity (env.identity.notes (env.identity.whoAt r.asked)) ++
  .drew (env.uuidAt r.drawn) ::
    Event.ofNotes .messaging [(.info, s.logLine "SEND" d.recipient "")] ++
  .sent (s.callAt env d payload r.asked r.drawn) ::
    Event.ofNotes .transport (s.answerAt env d payload r).notes ++
  Event.ofNotes .messaging (s.verdict d.recipient (s.answerAt env d payload r).result)

/-- The run after one exchange. -/
def exchanged (env : Surroundings σ) (s : Service) (d : Descriptor) (payload : Payload)
    (r : Run σ) : Run σ :=
  { r with
    world := (s.answerAt env d payload r).world
    asked := r.asked + 1
    drawn := r.drawn + 1
    events := r.events ++ s.exchangeEvents env d payload r }

section Exchanged

variable (env : Surroundings σ) (s : Service) (d : Descriptor) (payload : Payload) (r : Run σ)

@[simp] theorem exchanged_world :
    (s.exchanged env d payload r).world = (s.answerAt env d payload r).world := rfl

@[simp] theorem exchanged_shelves : (s.exchanged env d payload r).shelves = r.shelves := rfl

@[simp] theorem exchanged_book : (s.exchanged env d payload r).book = r.book := rfl

@[simp] theorem exchanged_asked : (s.exchanged env d payload r).asked = r.asked + 1 := rfl

@[simp] theorem exchanged_drawn : (s.exchanged env d payload r).drawn = r.drawn + 1 := rfl

@[simp] theorem exchanged_events : (s.exchanged env d payload r).events =
    r.events ++ s.exchangeEvents env d payload r := rfl

end Exchanged

/-! ## What a sender makes of an answer -/

/-- Whatever way the transport fails in, the sender reports a failure of the transport. -/
theorem family_sendError (s : Service) (recipient : String) (e : Error) :
    (s.sendError recipient e).family = .transport := by
  unfold sendError
  -- a failure of the transport is passed on, everything else becomes the cause of one
  split
  · assumption
  · rfl

theorem accepts_iff {s : Service} {reply : Response} :
    s.accepts reply = true ↔ reply.kind = some s.profile.expected.tag := by
  simp [accepts]

section Judgements

variable {s : Service} {recipient : String} {answer : Except Error Response}

/-- Only what the transport brought is accepted, as it was brought. -/
theorem answer_of_judged {reply : Response} (h : s.judged recipient answer = .ok reply) :
    answer = .ok reply := by
  cases answer with
  | error e => cases h
  | ok brought =>
    unfold judged at h
    cases hkind : s.accepts brought with
    | true =>
      simp only [hkind, if_true] at h
      exact h
    | false =>
      simp only [hkind, Bool.false_eq_true, if_false] at h
      cases h

/-- An exchange fails in the transport or in the kind of the reply. -/
theorem family_of_judged {err : Error} (h : s.judged recipient answer = .error err) :
    err.family = .transport ∨ err.family = .unexpectedKind := by
  cases answer with
  | error e =>
    cases h
    exact .inl (s.family_sendError recipient e)
  | ok brought =>
    unfold judged at h
    cases hkind : s.accepts brought with
    | true =>
      simp only [hkind, if_true] at h
      cases h
    | false =>
      simp only [hkind, Bool.false_eq_true, if_false] at h
      cases h
      exact .inr rfl

end Judgements

/-! ## The two courses -/

/-- A refused descriptor costs nothing: the run stands where it stood. -/
theorem perform_build_refused (env : Surroundings σ) {s : Service} {d : Option Descriptor}
    {flaw : DescriptorFlaw} (h : s.profile.accept d = .error flaw) (r : Run σ) :
    perform (s.build env d) r = (.error (.descriptor flaw), r) := by
  rw [build, h]
  rfl

/-- An accepted descriptor gives a message by the next identity, under the next identifier. -/
theorem perform_build (env : Surroundings σ) {s : Service} {d : Descriptor}
    (h : s.profile.accept (some d) = .ok d) (r : Run σ) :
    perform (s.build env (some d)) r =
      (.ok (s.message d (env.identity.whoAt r.asked) (env.uuidAt r.drawn) (env.clock r.asked)),
        { r with
          asked := r.asked + 1
          drawn := r.drawn + 1
          events := r.events ++ (.asked (env.identity.whoAt r.asked) ::
            Event.ofNotes .identity (env.identity.notes (env.identity.whoAt r.asked)) ++
            [.drew (env.uuidAt r.drawn)]) }) := by
  rw [build, h]
  simp only [perform_bind, perform_get, perform_identity, perform_uuid, perform_pure,
    List.append_assoc, List.cons_append]

/-- What the profile refuses never reaches the transport. -/
theorem perform_send_refused (env : Surroundings σ) {s : Service} {d : Option Descriptor}
    {flaw : DescriptorFlaw} (h : s.profile.accept d = .error flaw) (payload : Payload) (r : Run σ) :
    perform (s.send env d payload) r = (.error (.descriptor flaw), r) := by
  rw [send]
  exact perform_bind_error (perform_build_refused env h r)

theorem perform_sendAndValidate_refused (env : Surroundings σ) {s : Service}
    {d : Option Descriptor} {flaw : DescriptorFlaw} (h : s.profile.accept d = .error flaw)
    (payload : Payload) (r : Run σ) :
    perform (s.sendAndValidate env d payload) r = (.error (.descriptor flaw), r) := by
  rw [sendAndValidate]
  exact perform_bind_error (perform_send_refused env h payload r)

/-- One exchange: the transport is called once, and its answer decides. -/
theorem perform_sendAndValidate (env : Surroundings σ) {s : Service} {d : Descriptor}
    (h : s.profile.accept (some d) = .ok d) (payload : Payload) (r : Run σ) :
    perform (s.sendAndValidate env (some d) payload) r =
      (s.judged d.recipient (s.answerAt env d payload r).result,
        s.exchanged env d payload r) := by
  have hbuild := perform_build env h r
  rw [sendAndValidate, send, perform_bind, perform_bind, hbuild]
  simp only [Option.map_some, Option.getD_some, perform_bind, perform_note, perform_attempt,
    perform_transmit, Run.extended_world, Run.extended_events]
  -- from here on only the transport's answer matters
  rw [show env.transport.send ⟨d.recipient, (s.message d (env.identity.whoAt r.asked)
        (env.uuidAt r.drawn) (env.clock r.asked)).header, payload⟩ r.world
      = s.answerAt env d payload r from rfl]
  unfold exchanged exchangeEvents
  cases hanswer : (s.answerAt env d payload r).result with
  | error e =>
    simp only [perform_bind, perform_note, perform_throw, judged, verdict, Run.extended, callAt,
      Event.ofNotes, List.append_assoc, List.cons_append, List.map_cons, List.map_nil]
    rfl
  | ok reply =>
    simp only [perform_bind, perform_note, perform_pure, judged, verdict, Run.extended]
    cases hkind : s.accepts reply with
    | true =>
      simp only [if_true, perform_pure, callAt, Event.ofNotes, List.append_assoc,
        List.cons_append, List.map_cons, List.map_nil]
      rfl
    | false =>
      simp only [Bool.false_eq_true, if_false, perform_bind, perform_note, perform_throw,
        Run.extended, callAt, Event.ofNotes, List.append_assoc, List.cons_append, List.map_cons,
        List.map_nil]
      rfl

end Service

end Dataspace
