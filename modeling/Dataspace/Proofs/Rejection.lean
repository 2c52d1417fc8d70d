import Dataspace.Proofs.HttpNegotiation

/-!
# Rejections over HTTP

A peer that refuses a message says so in a message of its own, in parts like every other and often
on an error status. The sender must not take it for an outage, and still less for an answer. What
counts is the kind in its header: it is found on every status, none of the usual services expects
it, and what the peer sent along goes with the failure that is reported.

* **`outcome_sendAndValidate_http`** — over HTTP an exchange comes to what is received, as the
  sender judges it.
* **`rejection_over_http`** — what is reported of a rejection, whatever its status, its header and
  its payload.

As with every reply in parts, the boundary has to be one that the content type announces in a form
that the reader understands (`Multipart.Announces`).
-/

namespace Dataspace

open Exchange Multipart

variable {σ : Type}

/-- A connector whose peer answers every message in one way. -/
def Surroundings.answeredBy (reply : Http.Reply) : Surroundings Unit :=
  { (Engine.withGrantingPeer (.plain "urn:a")).toSurroundings with
    transport := Http.transport (.answering reply) }

namespace Service

variable {s : Service} {reply : Response} {env : Surroundings σ} {net : Http.Network σ}
  {d : Descriptor} {payload : Payload} {r : Run σ}

theorem not_accepts_rejection (hs : s.profile ∈ Profile.all)
    (hkind : reply.kind = some MessageKind.rejection.tag) : s.accepts reply = false := by
  have hexpected : ∀ p ∈ Profile.all, p.expected.tag ≠ MessageKind.rejection.tag :=
    forall_mem_of_all (by decide +kernel)
  apply Bool.eq_false_iff.2
  intro haccepts
  have hboth := accepts_iff.1 haccepts
  rw [hkind] at hboth
  exact hexpected s.profile hs (Option.some.inj hboth).symm

theorem judged_rejection (hs : s.profile ∈ Profile.all)
    (hkind : reply.kind = some MessageKind.rejection.tag) (recipient : String) :
    s.judged recipient (.ok reply) =
      .error (.unexpectedReply ⟨s.profile.expected.tag, some MessageKind.rejection.tag,
        some reply, some reply.payload, reply.rejectionReason⟩) := by
  have hrefused := not_accepts_rejection hs hkind
  rw [judged, hrefused, ← hkind]
  rfl

theorem outcome_sendAndValidate_http (htransport : env.transport = Http.transport net)
    (haccept : s.profile.accept (some d) = .ok d) :
    outcome (s.sendAndValidate env (some d) payload) r =
      s.judged d.recipient (Http.receive d.recipient
        (Http.answered net (s.callAt env d payload r.asked r.drawn) r.world)).1 := by
  rw [outcome, perform_sendAndValidate env haccept, answerAt, htransport]
  show s.judged _ (Http.send net _ _).result = _
  rw [Http.result_send]
  rfl

/-- **A rejection is always reported as a rejection.** Let one of the usual services send a message
that it can build, and let the peer answer with a rejection in parts: on any status, with any
further header fields, with any octets as payload, and under any boundary that the content type
announces and whose mark does not occur in the payload. Then the exchange fails with just this reply
as one of another kind. Every boundary that needs no quotes is announced by the content type of a
form. -/
theorem rejection_over_http (env : Surroundings σ) (net : Http.Network σ)
    (htransport : env.transport = Http.transport net) (s : Service)
    (hs : s.profile ∈ Profile.all) (d : Descriptor) (haccept : s.profile.accept (some d) = .ok d)
    (payload : Payload) (r : Run σ) {header : Header}
    (hkind : header.get? "@type" = some MessageKind.rejection.tag) (body : Text.Octets)
    (status : Nat) {contentType boundary : String} (hannounces : Announces contentType boundary)
    (hfree : ¬ Text.utf8 ("--" ++ boundary) <:+: body)
    (hreply : Http.answered net (s.callAt env d payload r.asked r.drawn) r.world =
      .ok ⟨status, some contentType, frame boundary (filesOf header (.octets body))⟩) :
    outcome (s.sendAndValidate env (some d) payload) r =
      .error (.unexpectedReply
        { expected := s.profile.expected.tag
          actual := some MessageKind.rejection.tag
          response := some ⟨header, .octets body⟩
          body := some (.octets body)
          reason := header.get? "ids:rejectionReason" }) ∧
    ∀ b : String, Mime.IsTokenText b.toList → b ≠ "" → Announces (formType b) b := by
  refine ⟨?_, fun b hb hne => announces_formType hb hne⟩
  have hreceived : Http.receive d.recipient
      (Http.answered net (s.callAt env d payload r.asked r.drawn) r.world) =
        (.ok ⟨header, .octets body⟩, []) := by
    rw [hreply]
    exact Http.receive_announced hannounces header (.octets body) hfree d.recipient status
  have hrejection : (⟨header, .octets body⟩ : Response).kind =
      some MessageKind.rejection.tag := hkind
  rw [outcome_sendAndValidate_http htransport haccept, hreceived,
    judged_rejection hs hrejection]
  rfl

/-- A rejection without a reason, on a good status, with line ends and no text in its payload. In
quotes an apostrophe does no harm. -/
theorem rejection_over_http_quoted :
    let header : Header := .ofPairs [("@type", MessageKind.rejection.tag)]
    let body : Text.Octets := [0x0D, 0x0A, 0x2D, 0x2D, 0xFF, 0x0D]
    let env := Surroundings.answeredBy ⟨200, some "multipart/mixed; boundary=\"a'b\"",
      frame "a'b" (filesOf header (.octets body))⟩
    outcome (artifacts.sendAndValidate env (some (.artifact "https://peer" "urn:x" none))
        (.text "")) (.start () .empty) =
      .error (.unexpectedReply ⟨"ids:ArtifactResponseMessage", some "ids:RejectionMessage",
        some ⟨header, .octets body⟩, some (.octets body), none⟩) := by
  intro header body env
  have hannounces : Announces "multipart/mixed; boundary=\"a'b\"" "a'b" := by
    refine ⟨by decide +kernel, by decide +kernel, ⟨⟨"multipart".toList, "mixed".toList⟩,
      ok_of_toOption (by decide +kernel), by decide⟩,
      ok_of_toOption (by decide +kernel), forall_mem_of_all (by decide +kernel)⟩
  have hkind : header.get? "@type" = some MessageKind.rejection.tag := by decide +kernel
  exact (rejection_over_http env _ rfl artifacts (by decide +kernel)
    (.artifact "https://peer" "urn:x" none) (by decide +kernel) (.text "") (.start () .empty)
    hkind body 200 hannounces (by decide +kernel) rfl).1

/-- Without quotes the apostrophe ends the value: nothing in the reply is found, and the rejection
is reported as a reply that cannot be read. -/
theorem rejection_over_http_apostrophe :
    let env := Surroundings.answeredBy ⟨200, some (formType "a'b"),
      frame "a'b" (filesOf (.ofPairs [("@type", MessageKind.rejection.tag)]) (.octets []))⟩
    ¬ Text.utf8 ("--" ++ "a'b") <:+: [] ∧
      outcome (artifacts.sendAndValidate env (some (.artifact "https://peer" "urn:x" none))
          (.text "")) (.start () .empty) =
        .error (.transport .malformed (some "https://peer")) :=
  ⟨by decide +kernel, by decide +kernel⟩

end Service

end Dataspace
