import Dataspace.Proofs.Basic
import Dataspace.Proofs.Delivery

/-!
# What stands in the messages of an engine

An engine speaks through four services, and its descriptors bring no properties of their own. So it
is known what stands in the header of each of its messages: the fields that all messages have
(`Service.Usual.get?_callAt`), the kind, by which the peer and everyone who sees the message know
which reply it asks for (`Service.Usual.expected_callAt`), and what it is about
(`Profile.filled_subject`).
-/

namespace Dataspace

variable {σ : Type}

/-- The services that an engine speaks through. -/
inductive Service.Usual : Service → Prop
  | descriptions (depth : Int) : Usual (.descriptions depth)
  | artifacts : Usual .artifacts
  | contractRequests : Usual .contractRequests
  | contractAgreements : Usual .contractAgreements

/-- The kind of reply that a message asks for by the kind in its own header. -/
def Call.expected (c : Call) : Option String :=
  (((c.header.get? "@type").bind MessageKind.ofTag?).bind Profile.ofKind?).map (·.expected.tag)

/-- The element or the artifact that a message asks for. -/
def Call.subject? (c : Call) : Option String :=
  (c.header.get? "ids:requestedElement").or (c.header.get? "ids:requestedArtifact")

namespace Profile

variable {p : Profile} {d d' : Descriptor}

theorem eq_of_accept (h : p.accept (some d) = .ok d') : d' = d := by
  unfold accept at h
  simp only at h
  split at h
  · cases h
  · split at h
    · exact (Except.ok.inj h).symm
    · cases h

/-- An accepted descriptor fills every field that the profile requires. -/
theorem filledIn_of_accept (h : p.accept (some d) = .ok d') {field : DescriptorField}
    (hfield : field ∈ p.required) : field.filledIn d = true := by
  unfold accept at h
  simp only at h
  split at h
  · cases h
  · split at h
    case isFalse => cases h
    case isTrue hmissing =>
      have hnone := List.filter_eq_nil_iff.1 hmissing field hfield
      simpa using hnone

/-- So the subject that it requires is the one that goes out. -/
theorem filled_subject (h : p.accept (some d) = .ok d') (hsubject : .subject ∈ p.required) :
    Service.filled d.subject = d.subject := by
  have hfilled := filledIn_of_accept h hsubject
  cases hd : d.subject with
  | none => rfl
  | some text =>
    simp only [DescriptorField.filledIn, hd, Option.any_some] at hfilled
    simp [Service.filled, hfilled]

end Profile

namespace Service.Usual

variable {s : Service} {d : Descriptor} {field : String}

theorem profile_mem (hs : s.Usual) : s.profile ∈ Profile.all := by
  cases hs with
  | descriptions depth => exact List.mem_cons_self
  | artifacts | contractRequests | contractAgreements => decide

/-- The usual services give no property but the depth of a description. -/
theorem not_mem_properties (hs : s.Usual) (hd : d.properties = .empty) (h : field ≠ "ids:depth") :
    field ∉ (s.mergedProperties d).entries.map Prod.fst := by
  have hdefaults : field ∉ (Fields.ofPairs s.profile.defaults.entries).entries.map Prod.fst := by
    cases hs with
    | descriptions | artifacts | contractRequests | contractAgreements => exact List.not_mem_nil
  have hproperties : field ∉ s.properties.entries.map Prod.fst := by
    cases hs with
    | descriptions depth => exact fun hmem => h (List.mem_singleton.1 hmem)
    | artifacts | contractRequests | contractAgreements => exact List.not_mem_nil
  unfold Service.mergedProperties
  rw [hd]
  exact Fields.not_mem_names_putAll List.not_mem_nil
    (Fields.not_mem_names_putAll hproperties hdefaults)

variable {env : Surroundings σ} {payload : Payload} {asked drawn : Nat}

/-- The fields that all messages have. -/
theorem get?_callAt (hs : s.Usual) (hd : d.properties = .empty)
    (hfield : field ∉ ["ids:requestedElement", "ids:requestedArtifact", "ids:transferContract",
      "ids:depth"]) :
    (s.callAt env d payload asked drawn).header.get? field =
      (Fields.ofPairs (s.message d (env.identity.whoAt asked) (env.uuidAt drawn)
        (env.clock asked)).commonFields).get? field := by
  simp only [List.mem_cons, List.not_mem_nil, or_false, not_or] at hfield
  obtain ⟨helement, hartifact, hcontract, hdepth⟩ := hfield
  refine Message.get?_header_common ?_ (hs.not_mem_properties hd hdepth)
  simp only [List.mem_cons, List.not_mem_nil, or_false, not_or]
  exact ⟨helement, hartifact, hcontract⟩

theorem type_callAt (hs : s.Usual) (hd : d.properties = .empty) :
    (s.callAt env d payload asked drawn).header.get? "@type" = some s.profile.kind.tag :=
  hs.get?_callAt hd (by decide)

/-- The kind in the header of a message asks for the reply that its service expects. -/
theorem expected_callAt (hs : s.Usual) (hd : d.properties = .empty) (env : Surroundings σ)
    (payload : Payload) (asked drawn : Nat) :
    (s.callAt env d payload asked drawn).expected = some s.profile.expected.tag := by
  have hround : ∀ p ∈ Profile.all,
      ((MessageKind.ofTag? p.kind.tag).bind Profile.ofKind?).map (·.expected.tag) =
        some p.expected.tag := forall_mem_of_all (by decide +kernel)
  rw [Call.expected, hs.type_callAt hd]
  exact hround s.profile hs.profile_mem

/-- What a request for a description or for an artifact is about. -/
theorem subject?_callAt (hs : s.Usual) (hd : d.properties = .empty)
    (haccept : s.profile.accept (some d) = .ok d)
    (hsubject : s.profile.subject = some .requestedElement ∨
      s.profile.subject = some .requestedArtifact) :
    (s.callAt env d payload asked drawn).subject? = d.subject := by
  have helement : (s.callAt env d payload asked drawn).header.get? "ids:requestedElement" =
      s.subjectFor d .requestedElement :=
    Message.get?_header_requestedElement (hs.not_mem_properties hd (by decide))
  have hartifact : (s.callAt env d payload asked drawn).header.get? "ids:requestedArtifact" =
      s.subjectFor d .requestedArtifact :=
    Message.get?_header_requestedArtifact (hs.not_mem_properties hd (by decide))
  have hrequired : .subject ∈ s.profile.required := by
    cases hs with
    | descriptions | artifacts | contractRequests | contractAgreements =>
      exact List.mem_cons_of_mem _ List.mem_cons_self
  have hfilled := Profile.filled_subject haccept hrequired
  unfold Call.subject?
  rw [helement, hartifact]
  unfold Service.subjectFor
  -- one of the two fields takes the subject, and the other stays empty
  rcases hsubject with hfield | hfield
  · rw [hfield, if_pos rfl, if_neg (by decide), hfilled, Option.or_none]
  · rw [hfield, if_neg (by decide), if_pos rfl, hfilled, Option.none_or]

end Service.Usual

end Dataspace
