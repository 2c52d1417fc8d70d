import Dataspace.Proofs.HeaderLayers
import Dataspace.Proofs.Messages

/-!
# From descriptor to header

A service builds its message from a descriptor, and the message goes out as a header. This module
says for the usual profiles which descriptors make a message, what a refusal names, and what the
header is, line by line: the fields that all messages have, those about the subject, and the
properties.

* **`Profile.names_missing`** — a refusal names the empty fields, in the order of the profile.
* **`Message.entries_ownFields`** — the fields of a message in their order.
* **`Service.entries_mergedProperties`** — the properties of the three layers in one row.
* **`Service.subjectFields_of_accepted`** — which field the subject fills, and when there is a
  transfer contract.
* **`Service.entries_header_message`** — the lines of the header, fields before properties.
* **`Service.build_follows_rule`** — all of it, for a message that is built at any point of a run.
-/

namespace Dataspace

open Exchange

variable {σ : Type}

/-! ## Refusals -/

namespace Descriptor

/-- The names of the fields that a descriptor has to fill and leaves empty. -/
def emptyFields (d : Descriptor) : List String :=
  (if d.recipient = "" then ["recipient"] else []) ++
    if d.subject.getD "" = "" then ["subject_id"] else []

theorem emptyFields_eq_nil {d : Descriptor} :
    d.emptyFields = [] ↔ d.recipient ≠ "" ∧ d.subject.getD "" ≠ "" := by
  unfold emptyFields
  by_cases hrecipient : d.recipient = "" <;> by_cases hsubject : d.subject.getD "" = "" <;>
    simp [hrecipient, hsubject]

end Descriptor

namespace Profile

variable {p : Profile} {d : Descriptor}

theorem required_of_mem (hp : p ∈ all) : p.required = [.recipient, .subject] :=
  forall_mem_of_all (p := fun p : Profile => p.required = [.recipient, .subject]) (by decide) p hp

/-- **A refusal names the empty fields**, in the order of the profile. -/
theorem names_missing (hp : p ∈ all) (d : Descriptor) :
    (p.missing d).map DescriptorField.name = d.emptyFields := by
  have hrecipient : (!DescriptorField.recipient.filledIn d) = true ↔ d.recipient = "" := by
    simp [DescriptorField.filledIn]
  have hsubject : (!DescriptorField.subject.filledIn d) = true ↔ d.subject.getD "" = "" := by
    cases hd : d.subject with
    | none => simp [DescriptorField.filledIn, hd]
    | some subject => simp [DescriptorField.filledIn, hd]
  rw [missing, required_of_mem hp, Descriptor.emptyFields]
  simp only [List.filter_cons, List.filter_nil, hrecipient, hsubject]
  split <;> split <;> rfl

theorem missing_eq_nil (hp : p ∈ all) : p.missing d = [] ↔ d.emptyFields = [] := by
  rw [← names_missing hp, List.map_eq_nil_iff]

/-- A descriptor of the right kind is refused for its empty fields alone. -/
theorem accept_of_kind (hkind : d.kind = p.kind) : p.accept (some d) =
    if p.missing d = [] then .ok d else .error (.missing p.kind (p.missing d)) := by
  simp only [accept, hkind, ne_eq, not_true_eq_false, if_false]

theorem of_accept {d' : Descriptor} (h : p.accept (some d) = .ok d') :
    d.kind = p.kind ∧ p.missing d = [] := by
  unfold accept at h
  simp only at h
  split at h
  · cases h
  · rename_i hkind
    split at h
    · rename_i hmissing
      exact ⟨Decidable.of_not_not hkind, hmissing⟩
    · cases h

/-- **What is accepted** has the right kind and says to whom and about what. -/
theorem accept_iff (hp : p ∈ all) (given : Option Descriptor) :
    (∃ d, p.accept given = .ok d) ↔ ∃ d, given = some d ∧ d.kind = p.kind ∧ d.recipient ≠ "" ∧
      ∃ subject, d.subject = some subject ∧ subject ≠ "" := by
  constructor
  · rintro ⟨d', haccept⟩
    cases given with
    | none => cases haccept
    | some d =>
      obtain ⟨hkind, hmissing⟩ := of_accept haccept
      obtain ⟨hrecipient, hsubject⟩ :=
        Descriptor.emptyFields_eq_nil.1 ((missing_eq_nil hp).1 hmissing)
      refine ⟨d, rfl, hkind, hrecipient, ?_⟩
      cases hd : d.subject with
      | none => exact absurd (by rw [hd]; rfl) hsubject
      | some subject => exact ⟨subject, rfl, by simpa [hd] using hsubject⟩
  · rintro ⟨d, rfl, hkind, hrecipient, subject, hd, hsubject⟩
    have hmissing : p.missing d = [] := (missing_eq_nil hp).2
      (Descriptor.emptyFields_eq_nil.2 ⟨hrecipient, by rwa [hd, Option.getD_some]⟩)
    exact ⟨d, by rw [accept_of_kind hkind, if_pos hmissing]⟩

theorem message_of_refused (hp : p ∈ all) (hkind : d.kind = p.kind) {flaw : DescriptorFlaw}
    (h : p.accept (some d) = .error flaw) :
    flaw.message = p.kind.tag ++ " requires " ++ ", ".intercalate d.emptyFields := by
  by_cases hmissing : p.missing d = []
  · rw [accept_of_kind hkind, if_pos hmissing] at h
    cases h
  · rw [accept_of_kind hkind, if_neg hmissing] at h
    rw [← Except.error.inj h, ← names_missing hp]
    rfl

end Profile

/-! ## The header of a message -/

namespace Message

/-- The names of the fields that a message can have of its own. -/
def fieldNames : List String :=
  ["@type", "@id", "ids:issued", "ids:modelVersion", "ids:issuerConnector", "ids:senderAgent",
    "ids:securityToken", "ids:recipientConnector", "ids:requestedElement", "ids:requestedArtifact",
    "ids:transferContract"]

/-- The fields of a message that it need not have. -/
def optionalFields (m : Message) : List (String × String) :=
  m.requestedElement.toList.map ("ids:requestedElement", ·) ++
    m.requestedArtifact.toList.map ("ids:requestedArtifact", ·) ++
    m.transferContract.toList.map ("ids:transferContract", ·)

/-- **The fields of a message in their order.** -/
theorem entries_ownFields (m : Message) :
    m.ownFields.entries = m.commonFields ++ m.optionalFields := by
  have hnames : m.commonFields.map Prod.fst =
      ["@type", "@id", "ids:issued", "ids:modelVersion", "ids:issuerConnector", "ids:senderAgent",
        "ids:securityToken", "ids:recipientConnector"] := rfl
  have hcommon : (Fields.ofPairs m.commonFields).entries = m.commonFields :=
    Fields.entries_ofPairs (by rw [hnames]; decide)
  -- each of the three has a name that does not stand there yet
  have helement : ((Fields.ofPairs m.commonFields).putSome "ids:requestedElement"
      m.requestedElement).entries =
        m.commonFields ++ m.requestedElement.toList.map ("ids:requestedElement", ·) := by
    rw [Fields.entries_putSome_of_new, hcommon]
    rw [hcommon, hnames]
    decide
  have hartifact : (((Fields.ofPairs m.commonFields).putSome "ids:requestedElement"
      m.requestedElement).putSome "ids:requestedArtifact" m.requestedArtifact).entries =
        m.commonFields ++ m.requestedElement.toList.map ("ids:requestedElement", ·) ++
          m.requestedArtifact.toList.map ("ids:requestedArtifact", ·) := by
    rw [Fields.entries_putSome_of_new, helement]
    rw [helement, List.map_append, hnames]
    cases m.requestedElement <;> simp
  rw [ownFields, Fields.entries_putSome_of_new, hartifact, optionalFields]
  · simp only [List.append_assoc]
  · rw [hartifact, List.map_append, List.map_append, hnames]
    cases m.requestedElement <;> cases m.requestedArtifact <;> simp

theorem names_ownFields_subset (m : Message) : m.ownFields.entries.map Prod.fst ⊆ fieldNames := by
  have hnames : m.commonFields.map Prod.fst = fieldNames.take 8 := rfl
  rw [entries_ownFields, optionalFields, List.map_append, hnames]
  cases m.requestedElement <;> cases m.requestedArtifact <;> cases m.transferContract <;>
    simp [fieldNames]

/-- Properties under other names stand behind the fields of the message. -/
theorem entries_header {m : Message}
    (h : ∀ name ∈ m.properties.entries.map Prod.fst, name ∉ fieldNames) :
    m.header.entries = m.commonFields ++ m.optionalFields ++ m.properties.entries := by
  have hdistinct : (m.ownFields.entries.map Prod.fst ++
      m.properties.entries.map Prod.fst).Nodup := by
    refine List.nodup_append.2 ⟨m.ownFields.distinct, m.properties.distinct, ?_⟩
    rintro name hown _ hproperty rfl
    exact h name hproperty (m.names_ownFields_subset hown)
  have hheader : m.header.entries = m.ownFields.entries ++ m.properties.entries :=
    m.ownFields.entries_putAll_of_new hdistinct
  rw [hheader, entries_ownFields]

end Message

/-! ## What a service puts there -/

namespace Descriptor

/-- The agreement that entitles to what is asked for. -/
def entitlementLines (d : Descriptor) : List (String × String) :=
  let contract := d.transferContract.getD ""
  if contract = "" then [] else [("ids:transferContract", contract)]

/-- What a message of the descriptor's kind says of its subject. An agreement is its own
entitlement. -/
def subjectLines (d : Descriptor) : List (String × String) :=
  let subject := d.subject.getD ""
  match d.kind with
  | .descriptionRequest | .contractRequest =>
    ("ids:requestedElement", subject) :: d.entitlementLines
  | .artifactRequest => ("ids:requestedArtifact", subject) :: d.entitlementLines
  | .contractAgreement => [("ids:transferContract", subject)]
  | _ => []

theorem map_filled_transferContract (d : Descriptor) :
    (Service.filled d.transferContract).toList.map ("ids:transferContract", ·) =
      d.entitlementLines := by
  rw [entitlementLines]
  cases d.transferContract with
  | none => rfl
  | some contract =>
    rw [Service.filled_some, Option.getD_some]
    by_cases h : contract = "" <;> simp [h]

end Descriptor

namespace Service

/-- What all messages of a service say. -/
def commonLines (s : Service) (who : Identity) (u : Uuid) (now : Timestamp) (recipient : String) :
    List (String × String) :=
  [("@type", s.profile.kind.tag), ("@id", u.messageId s.profile.kind),
    ("ids:issued", now.headerText), ("ids:modelVersion", who.modelVersion),
    ("ids:issuerConnector", who.connectorId), ("ids:senderAgent", who.connectorId),
    ("ids:securityToken", who.token), ("ids:recipientConnector", recipient)]

theorem commonFields_message (s : Service) (d : Descriptor) (who : Identity) (u : Uuid)
    (now : Timestamp) :
    (s.message d who u now).commonFields = s.commonLines who u now d.recipient := by
  have hrecipients : ",".intercalate [d.recipient] = d.recipient := String.intercalate_singleton
  unfold Message.commonFields commonLines message
  simp only [hrecipients]

/-- The names of the properties, each where it first appears in the profile, in the service or in
the descriptor. -/
def propertyNames (s : Service) (d : Descriptor) : List String :=
  (s.profile.defaults.entries.map Prod.fst ++ s.properties.entries.map Prod.fst ++
    d.properties.entries.map Prod.fst).eraseDups

/-- The properties, each with the value of the last of the three that has it. -/
def propertyLines (s : Service) (d : Descriptor) : List (String × String) :=
  (s.propertyNames d).map fun name => (name, (s.property? d name).getD "")

/-- **The properties in one row.** -/
theorem entries_mergedProperties (s : Service) (d : Descriptor) :
    (s.mergedProperties d).entries = s.propertyLines d := by
  -- the layers are put in one after another, as if they were one row of entries
  have hrow : s.mergedProperties d =
      s.profile.defaults.putAll (s.properties.entries ++ d.properties.entries) := by
    rw [mergedProperties, Fields.ofPairs_entries]
    exact (List.foldl_append ..).symm
  have hnames : (s.mergedProperties d).entries.map Prod.fst = s.propertyNames d := by
    rw [hrow, Fields.names_putAll, List.map_append, propertyNames, List.append_assoc]
  rw [Fields.entries_eq_map _ "", hnames]
  simp only [get?_mergedProperties]
  rfl

/-- **The fields about the subject**, kind by kind. -/
theorem subjectFields_of_accepted {s : Service} (hs : s.profile ∈ Profile.all) {d : Descriptor}
    (hkind : d.kind = s.profile.kind) (hsubject : d.subject.getD "" ≠ "") (who : Identity)
    (u : Uuid) (now : Timestamp) :
    (s.message d who u now).optionalFields = d.subjectLines := by
  have hfilled : filled d.subject = some (d.subject.getD "") := by
    cases hd : d.subject with
    | none => exact absurd (by rw [hd]; rfl) hsubject
    | some subject =>
      rw [hd, Option.getD_some] at hsubject
      rw [filled_some, if_neg hsubject, Option.getD_some]
  have hcontract := d.map_filled_transferContract
  unfold Message.optionalFields message Descriptor.subjectLines
  simp only [subjectFor, hfilled, hkind, ← hcontract]
  simp only [Profile.all, List.mem_cons, List.not_mem_nil, or_false] at hs
  rcases hs with hs | hs | hs | hs
  all_goals
    rw [hs]
    rfl

/-- **The header, line by line.** -/
theorem entries_header_message {s : Service} (hs : s.profile ∈ Profile.all) {d : Descriptor}
    (hkind : d.kind = s.profile.kind) (hsubject : d.subject.getD "" ≠ "")
    (hplain : ∀ name ∈ s.propertyNames d, name ∉ Message.fieldNames) (who : Identity) (u : Uuid)
    (now : Timestamp) :
    (s.message d who u now).header.entries =
      s.commonLines who u now d.recipient ++ d.subjectLines ++ s.propertyLines d := by
  have hproperties : (s.message d who u now).properties.entries = s.propertyLines d :=
    s.entries_mergedProperties d
  have hnames : (s.propertyLines d).map Prod.fst = s.propertyNames d := by
    rw [propertyLines, List.map_map]
    exact List.map_id _
  have hother : ∀ name ∈ (s.message d who u now).properties.entries.map Prod.fst,
      name ∉ Message.fieldNames := by
    rw [hproperties, hnames]
    exact hplain
  rw [Message.entries_header hother, hproperties, commonFields_message,
    subjectFields_of_accepted hs hkind hsubject]

/-! ## The rule -/

/-- **The rule** from what is given to a service to what it builds of it. -/
structure Builds (s : Service) (who : Identity) (u : Uuid) (now : Timestamp)
    (given : Option Descriptor) (result : Except Error Message) : Prop where
  /-- A message is built of every descriptor of the kind of the service that says to whom and about
  what, and of nothing else. -/
  accepted : (∃ m, result = .ok m) ↔ ∃ d, given = some d ∧ d.kind = s.profile.kind ∧
    d.recipient ≠ "" ∧ ∃ subject, d.subject = some subject ∧ subject ≠ ""
  /-- Everything else is refused as a descriptor. -/
  refused : ∀ e, result = .error e → e.family = .descriptor
  /-- The refusal of a descriptor of the right kind names the fields that are empty. -/
  missing : ∀ d e, given = some d → d.kind = s.profile.kind → result = .error e →
    e.message = s.profile.kind.tag ++ " requires " ++ ", ".intercalate d.emptyFields
  /-- The header of the message, line by line, unless a property bears the name of a field. -/
  header : ∀ d m, given = some d → result = .ok m →
    (∀ name ∈ s.propertyNames d, name ∉ Message.fieldNames) →
    m.header.entries =
      s.commonLines who u now d.recipient ++ d.subjectLines ++ s.propertyLines d ∧
    (m.header.entries.map Prod.fst).Nodup

/-- **Building a message** follows the rule, with the identity, the identifier and the time of that
point of the run. -/
theorem build_follows_rule (env : Surroundings σ) (s : Service) (hs : s.profile ∈ Profile.all)
    (given : Option Descriptor) (r : Run σ) :
    s.Builds (env.identity.whoAt r.asked) (env.uuidAt r.drawn) (env.clock r.asked) given
      (outcome (s.build env given) r) := by
  have hiff := Profile.accept_iff hs given
  cases haccept : s.profile.accept given with
  | error flaw =>
    have hrefused : outcome (s.build env given) r = .error (.descriptor flaw) := by
      rw [outcome, perform_build_refused env haccept]
    rw [haccept] at hiff
    rw [hrefused]
    refine ⟨?_, ?_, ?_, ?_⟩
    · rw [← hiff]
      constructor <;> rintro ⟨_, ⟨⟩⟩
    · rintro e ⟨⟩
      rfl
    · rintro d e rfl hkind ⟨⟩
      exact Profile.message_of_refused hs hkind haccept
    · rintro d m - ⟨⟩
  | ok d =>
    obtain ⟨d', rfl, hkind, hrecipient, subject, hd, hsubject⟩ := hiff.1 ⟨d, haccept⟩
    obtain rfl := Profile.eq_of_accept haccept
    have hbuilt : outcome (s.build env (some d)) r = .ok (s.message d
        (env.identity.whoAt r.asked) (env.uuidAt r.drawn) (env.clock r.asked)) := by
      rw [outcome, perform_build env haccept]
    rw [hbuilt]
    refine ⟨?_, ?_, ?_, ?_⟩
    · exact ⟨fun _ => ⟨d, rfl, hkind, hrecipient, subject, hd, hsubject⟩, fun _ => ⟨_, rfl⟩⟩
    · rintro e ⟨⟩
    · rintro d' e - - ⟨⟩
    · rintro d' m ⟨⟩ ⟨⟩ hplain
      have hfilled : d.subject.getD "" ≠ "" := by rwa [hd, Option.getD_some]
      exact ⟨entries_header_message hs hkind hfilled hplain _ _ _, Fields.distinct _⟩

/-- A service with properties of its own. -/
def labelled : Service :=
  ⟨.artifactRequest, .ofPairs [("b", "1"), ("a", "2")]⟩

/-- A request under an agreement, which gives one of these properties another value and adds one. -/
def relabelled : Descriptor :=
  { Descriptor.artifact "https://peer" "urn:x" (some "urn:a") with
    properties := .ofPairs [("c", "3"), ("b", "4")] }

/-- The property keeps its place and takes the new value. -/
theorem build_follows_rule_of_relabelled :
    let env := (Engine.withGrantingPeer (.plain "urn:a")).toSurroundings
    labelled.profile ∈ Profile.all ∧
    ∃ m, outcome (labelled.build env (some relabelled)) (.start () .empty) = .ok m ∧
      m.header.entries.drop 8 = [("ids:requestedArtifact", "urn:x"),
        ("ids:transferContract", "urn:a"), ("b", "4"), ("a", "2"), ("c", "3")] := by
  intro env
  have hs : labelled.profile ∈ Profile.all := by decide
  have hrule := build_follows_rule env labelled hs (some relabelled) (.start () .empty)
  obtain ⟨m, hm⟩ :=
    hrule.accepted.2 ⟨relabelled, rfl, rfl, by decide, "urn:x", rfl, by decide⟩
  have hplain : ∀ name ∈ labelled.propertyNames relabelled, name ∉ Message.fieldNames :=
    forall_mem_of_all (by decide +kernel)
  obtain ⟨hheader, -⟩ := hrule.header relabelled m rfl hm hplain
  refine ⟨hs, m, hm, ?_⟩
  rw [hheader]
  decide +kernel

end Service

end Dataspace
