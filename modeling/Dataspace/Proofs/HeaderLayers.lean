import Dataspace.Proofs.Frame
import Dataspace.Proofs.NegotiationOutcome

/-!
# Which layer gives a header field its value

The header of a message is written in layers: first the fields of the message itself, then the
properties of the profile, of the service and of the descriptor. A later layer takes the place of an
earlier one wherever the two have a name in common, and the fields that belong to the protocol — the
kind, the identifier, who speaks and to whom — are no exception. So they have the values of the
message only as long as no property names them.

* **`Message.get?_header_layers`** — a property goes before a field of the message.
* **`Service.property?`**, **`Service.get?_mergedProperties`** — of several properties under one
  name, the descriptor's goes first, then the service's, then the profile's.
* **`Service.protocolField_sent`** — the protocol fields in the header that the transport gets.
-/

namespace Dataspace

open Exchange

variable {σ : Type}

namespace Message

/-- Each of the common fields stands there under its name. -/
theorem get?_ownFields_common {m : Message} {field value : String}
    (h : (field, value) ∈ m.commonFields) : m.ownFields.get? field = some value := by
  have hnames : m.commonFields.map Prod.fst =
      ["@type", "@id", "ids:issued", "ids:modelVersion", "ids:issuerConnector", "ids:senderAgent",
        "ids:securityToken", "ids:recipientConnector"] := rfl
  have hdistinct : (m.commonFields.map Prod.fst).Nodup := by
    rw [hnames]
    decide
  -- the fields of the subject have other names
  have hsubject : ∀ name ∈ ["ids:requestedElement", "ids:requestedArtifact",
      "ids:transferContract"], name ∉ m.commonFields.map Prod.fst := by
    rw [hnames]
    decide
  have hother : ∀ name ∈ ["ids:requestedElement", "ids:requestedArtifact", "ids:transferContract"],
      field ≠ name := by
    rintro name hname rfl
    exact hsubject field hname (List.mem_map_of_mem h)
  unfold ownFields
  rw [Fields.get?_putSome_of_ne _ (hother _ (by decide)),
    Fields.get?_putSome_of_ne _ (hother _ (by decide)),
    Fields.get?_putSome_of_ne _ (hother _ (by decide)), Fields.get?,
    Fields.entries_ofPairs hdistinct]
  exact Entries.get?_of_mem hdistinct h

end Message

namespace Service

/-! ## Layers of properties -/

/-- What the properties say of a field, the descriptor's before the service's before the
profile's. -/
def property? (s : Service) (d : Descriptor) (field : String) : Option String :=
  (d.properties.get? field).or ((s.properties.get? field).or (s.profile.defaults.get? field))

theorem get?_mergedProperties (s : Service) (d : Descriptor) (field : String) :
    (s.mergedProperties d).get? field = s.property? d field := by
  unfold mergedProperties property?
  rw [Fields.get?_putAll d.properties.distinct, Fields.get?_putAll s.properties.distinct,
    Fields.ofPairs_entries]
  rfl

/-- A field of a message from a service: its properties go before the fields of the message. -/
theorem get?_header_message (s : Service) (d : Descriptor) (who : Identity) (u : Uuid)
    (now : Timestamp) (field : String) :
    (s.message d who u now).header.get? field =
      (s.property? d field).or ((s.message d who u now).ownFields.get? field) := by
  have hproperties : (s.message d who u now).properties.get? field = s.property? d field :=
    s.get?_mergedProperties d field
  rw [Message.get?_header_layers, hproperties]

/-! ## The protocol fields -/

/-- The fields by which the protocol knows a message, with the values that they are to have: its
kind, its identifier, what its sender says of itself, and the peer. -/
def protocolFields (s : Service) (who : Identity) (u : Uuid) (recipient : String) :
    List (String × String) :=
  [("@type", s.profile.kind.tag), ("@id", u.messageId s.profile.kind),
    ("ids:modelVersion", who.modelVersion), ("ids:issuerConnector", who.connectorId),
    ("ids:senderAgent", who.connectorId), ("ids:securityToken", who.token),
    ("ids:recipientConnector", recipient)]

/-- They are among the fields that all messages have. -/
theorem protocolFields_subset (s : Service) (d : Descriptor) (who : Identity) (u : Uuid)
    (now : Timestamp) :
    s.protocolFields who u d.recipient ⊆ (s.message d who u now).commonFields := by
  have hrecipients : ",".intercalate [d.recipient] = d.recipient := String.intercalate_singleton
  unfold protocolFields Message.commonFields message
  simp only [hrecipients]
  -- the common fields have the time of issue besides
  exact List.Sublist.subset (.cons_cons _ (.cons_cons _ (.cons _ (.refl _))))

/-- To send and to judge the reply hands over the same messages as to send. -/
theorem calls_sendAndValidate (env : Surroundings σ) (s : Service) (d : Option Descriptor)
    (payload : Payload) (r : Run σ) :
    (after (s.sendAndValidate env d payload) r).calls = (after (s.send env d payload) r).calls := by
  -- what follows the reply is said and not sent
  have hdeaf : Deaf (σ := σ) Run.calls := fun r component notes => by simp
  have hkeeps := Keeps.congruence hdeaf
  unfold sendAndValidate
  refine Keeps.after_bind (fun reply => ?_) (s.send env d payload) r
  cases s.accepts reply with
  | true => exact hkeeps.pure reply
  | false => exact Keeps.bind (fun r => hdeaf r _ _) fun _ => hkeeps.throw _

/-- **The protocol fields of a message.** A descriptor that the service accepts makes one message,
which goes to the peer of the descriptor, whether its reply is judged or not. In the header that the
transport gets, each of the protocol fields has the value that a property gives it, and its own
value only if there is no such property. So it is right exactly if all that the properties say of
it is right. -/
theorem protocolField_sent (env : Surroundings σ) (s : Service) {d : Descriptor}
    (haccept : s.profile.accept (some d) = .ok d) (payload : Payload) (r : Run σ) :
    ∃ call,
      (after (s.send env (some d) payload) r).calls = r.calls ++ [call] ∧
      (after (s.sendAndValidate env (some d) payload) r).calls = r.calls ++ [call] ∧
      call.recipient = d.recipient ∧
      ∀ field value,
        (field, value) ∈ s.protocolFields (env.identity.whoAt r.asked) (env.uuidAt r.drawn)
          d.recipient →
        call.header.get? field = some ((s.property? d field).getD value) ∧
        (call.header.get? field = some value ↔
          ∀ other, s.property? d field = some other → other = value) := by
  have hcalls : (after (s.sendAndValidate env (some d) payload) r).calls =
      r.calls ++ [s.callAt env d payload r.asked r.drawn] := by
    rw [after, perform_sendAndValidate env haccept, calls_exchanged]
  refine ⟨s.callAt env d payload r.asked r.drawn, ?_, hcalls, rfl, ?_⟩
  · rw [← calls_sendAndValidate, hcalls]
  · intro field value hfield
    have hown := Message.get?_ownFields_common
      (s.protocolFields_subset d _ _ (env.clock r.asked) hfield)
    have hheader : (s.callAt env d payload r.asked r.drawn).header.get? field =
        some ((s.property? d field).getD value) := by
      unfold callAt
      rw [get?_header_message, hown]
      cases s.property? d field with
      | none => rfl
      | some other => rfl
    refine ⟨hheader, ?_⟩
    rw [hheader]
    cases s.property? d field with
    | none => simp
    | some other => simp

/-- A request with a remark that is no field of the protocol. -/
def remarked : Descriptor :=
  { Descriptor.about .contractRequest "https://peer" "urn:r" with
    properties := .ofPairs [("remark", "soon")] }

/-- Such a remark leaves the protocol fields as they are. -/
theorem protocolField_sent_of_remarked :
    let env := (Engine.withGrantingPeer (.plain "urn:a")).toSurroundings
    contractRequests.profile.accept (some remarked) = .ok remarked ∧
    ∃ call,
      (after (contractRequests.send env (some remarked) (.text "")) (.start () .empty)).calls =
        [call] ∧
      call.recipient = "https://peer" ∧
      call.header.get? "@type" = some MessageKind.contractRequest.tag ∧
      call.header.get? "ids:securityToken" = some "token" := by
  intro env
  have haccept : contractRequests.profile.accept (some remarked) = .ok remarked :=
    ok_of_toOption (by decide +kernel)
  obtain ⟨call, hcalls, -, hrecipient, hfields⟩ :=
    protocolField_sent env contractRequests haccept (.text "") (.start () .empty)
  refine ⟨haccept, call, hcalls, hrecipient, ?_, ?_⟩
  · exact (hfields "@type" _ List.mem_cons_self).1
  · exact (hfields "ids:securityToken" "token" (by decide +kernel)).1

/-- A request that a property declares to be of another kind than its service sends. -/
def misdeclared : Descriptor :=
  { Descriptor.about .contractRequest "https://peer" "urn:r" with
    properties := .ofPairs [("@type", MessageKind.artifactRequest.tag)] }

/-- A property that is named like a field of the protocol takes its place: the message goes out as
one of another kind than the reply is judged by. -/
theorem protocolField_overridden :
    let env := (Engine.withGrantingPeer (.plain "urn:a")).toSurroundings
    contractRequests.profile.accept (some misdeclared) = .ok misdeclared ∧
    ∃ call ∈ (after (contractRequests.sendAndValidate env (some misdeclared) (.text ""))
        (.start () .empty)).calls,
      call.recipient = "https://peer" ∧
      call.header.get? "@type" = some MessageKind.artifactRequest.tag ∧
      call.header.get? "@type" ≠ some contractRequests.profile.kind.tag :=
  ⟨ok_of_toOption (by decide +kernel), by decide +kernel⟩

end Service

end Dataspace
