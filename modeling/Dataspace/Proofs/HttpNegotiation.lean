import Dataspace.Http
import Dataspace.Proofs.ContractDocument
import Dataspace.Proofs.MultipartForm
import Dataspace.Proofs.Session

/-!
# A negotiation over HTTP

Everything between a contract and the octets on the net, in both directions: the request is written
as a document, framed as a form and posted; the agreement comes back as a form, whose payload is
decoded, read, held against the request and kept. No step of the way changes a contract, and none
refuses one that it should let pass.

* **`receive_announced`** — a reply in parts is read on every status.
* **`posted_reads_back`** — what the peer sees is the message and the request in it.
* **`negotiate_over_http`** — an agreement that the peer sends as a form is returned and stored.

A form announces its boundary without quotes. One with a character that ends an unquoted value is
cut short there, and then nothing in the form is found.
-/

namespace Dataspace

open Exchange Multipart

variable {σ : Type}

namespace Http

/-! ## Replies -/

/-- A reply in parts is read whatever the status says. -/
theorem receive_announced {contentType boundary : String} (h : Announces contentType boundary)
    (header : Header) (payload : Payload)
    (hfree : ¬ Text.utf8 ("--" ++ boundary) <:+: payload.wire) (recipient : String) (status : Nat) :
    receive recipient (.ok ⟨status, some contentType, frame boundary (filesOf header payload)⟩) =
      (.ok ⟨header, .octets payload.wire⟩, []) := by
  have hdecode := decode_announced header payload hfree h
  unfold receive
  simp only [h.multipart, Bool.not_true, Bool.false_and, Bool.false_eq_true, if_false]
  unfold receiveParts
  simp only [Option.getD_some, hdecode]

/-! ## The net -/

/-- The surroundings when a message is about to be posted: there are connections. -/
def connected (net : Network σ) (world : σ) : σ :=
  net.withConnections (net.connections world).acquire.2 world

/-- The request that a message is posted in. -/
def posted (net : Network σ) (call : Call) (world : σ) : Request :=
  request (net.boundary (connected net world)) call

/-- What comes back for it. -/
def answered (net : Network σ) (call : Call) (world : σ) : Except Failure Reply :=
  (net.exchange (posted net call world) (connected net world)).1

theorem result_send (net : Network σ) (call : Call) (world : σ) :
    (send net call world).result = (receive call.recipient (answered net call world)).1 :=
  rfl

end Http

/-- A net on which every request is answered in one way. -/
def Http.Network.answering (reply : Http.Reply) : Http.Network Unit where
  exchange _ world := (.ok reply, world)
  boundary _ := "0123456789abcdef0123456789abcdef"
  connections _ := .none
  withConnections _ world := world

/-- A connector whose peer answers with one agreement, framed as a form. -/
def Engine.withFormPeer (status : Nat) (boundary : String) (header : Header) (offer : Contract) :
    Engine Unit :=
  { withGrantingPeer offer with
    transport := Http.transport (.answering ⟨status, some (formType boundary),
      frame boundary (filesOf header (.text offer.document))⟩)
    confirms := false }

/-! ## What is said and what is understood -/

/-- Octets that were sent for a document hold its contract. -/
theorem Response.holds_document {agreement : Contract} (h : agreement.Documented)
    (header : Header) :
    (⟨header, .octets (Text.utf8 agreement.document)⟩ : Response).Holds agreement := by
  refine ⟨.text agreement.document, ?_, agreement.isBlank_document,
    Contract.readPayload_document (Contract.documented_iff.1 h) .agreement⟩
  simp only [Received.toText, Text.Charset.decode, Text.utf8, Text.Utf8.decode_encode, Except.map,
    String.ofList_toList]

namespace Engine

variable {e : Engine σ} {net : Http.Network σ} {recipient : String} {request agreement : Contract}
  {r : Run σ}

/-- A contract that is posted reads back from what the peer sees. -/
theorem posted_reads_back (h : request.Documented)
    (hb : Mime.IsTokenText (net.boundary (Http.connected net r.world)).toList)
    (hboundary : net.boundary (Http.connected net r.world) ≠ "")
    (hfree : ¬ Text.utf8 ("--" ++ net.boundary (Http.connected net r.world)) <:+:
      Text.utf8 request.document) :
    let posted := Http.posted net (e.requestCall recipient request r) r.world
    ∃ payload, decode (some posted.contentType) posted.body =
        .ok ⟨(e.requestCall recipient request r).header, payload⟩ ∧
      Contract.readPayload .request payload = .ok request := by
  intro posted
  exact ⟨_, decode_announced _ (.text request.document) hfree (announces_formType hb hboundary),
    Contract.readPayload_octets (Contract.documented_iff.1 h) .request⟩

/-- An agreement that the peer sends as a form is granted. -/
theorem granted_of_form (htransport : e.transport = Http.transport net)
    (hconfirms : e.confirms = false) (haddressed : Addressed recipient request)
    (hagreement : agreement.Documented) (hcompare : agreement.compare request = [])
    {header : Header} (hkind : header.get? "@type" = some MessageKind.contractAgreement.tag)
    {status : Nat} {boundary : String} (hb : Mime.IsTokenText boundary.toList)
    (hboundary : boundary ≠ "")
    (hfree : ¬ Text.utf8 ("--" ++ boundary) <:+: Text.utf8 agreement.document)
    (hreply : Http.answered net (e.requestCall recipient request r) r.world =
      .ok ⟨status, some (formType boundary),
        frame boundary (filesOf header (.text agreement.document))⟩) :
    e.Granted recipient request r agreement := by
  have hanswer : (e.requestAnswer recipient request r).result =
      .ok ⟨header, .octets (Text.utf8 agreement.document)⟩ := by
    have hreceived : Http.receive recipient (Http.answered net (e.requestCall recipient request r)
        r.world) = (.ok ⟨header, .octets (Text.utf8 agreement.document)⟩, []) :=
      hreply ▸ Http.receive_announced (announces_formType hb hboundary) header
        (.text agreement.document) hfree recipient status
    have hsend := Http.result_send net (e.requestCall recipient request r) r.world
    rw [show (e.requestCall recipient request r).recipient = recipient from rfl, hreceived] at hsend
    unfold requestAnswer
    rw [htransport]
    exact hsend
  have hreadable : e.Readable recipient request r agreement :=
    ⟨_, ⟨⟨haddressed, hanswer⟩, hkind⟩, Response.holds_document hagreement header⟩
  refine ⟨⟨hreadable, hcompare⟩, fun hconfirmed => ?_⟩
  rw [hconfirms] at hconfirmed
  cases hconfirmed

/-- **An agreement that comes over HTTP is accepted unchanged.** Let the peer answer the request
with an agreement that is not at odds with it, in a form with any further header fields, on any
status, and under a boundary that needs no quotes in the content type and whose mark does not occur
in the document. Then the negotiation returns this agreement and puts it into the book. And if the
boundary drawn for the request is of that kind too, what the peer sees is the message and the
request. -/
theorem negotiate_over_http (e : Engine σ) (net : Http.Network σ)
    (htransport : e.transport = Http.transport net) (hagreements : e.agreements = .inMemory)
    (hexaminer : e.examiner = .strict) (hconfirms : e.confirms = false) {recipient : String}
    {request agreement : Contract} {r : Run σ} (hrecipient : recipient ≠ "")
    (hid : request.id ≠ "") (hrequest : request.Documented) (hagreement : agreement.Documented)
    (hcompare : agreement.compare request = []) {header : Header}
    (hkind : header.get? "@type" = some MessageKind.contractAgreement.tag) {status : Nat}
    {boundary : String} (hb : Mime.IsTokenText boundary.toList) (hboundary : boundary ≠ "")
    (hfree : ¬ Text.utf8 ("--" ++ boundary) <:+: Text.utf8 agreement.document)
    (hreply : Http.answered net (e.requestCall recipient request r) r.world =
      .ok ⟨status, some (formType boundary),
        frame boundary (filesOf header (.text agreement.document))⟩) :
    let r' := after (e.negotiate recipient request) r
    let posted := Http.posted net (e.requestCall recipient request r) r.world
    let drawn := net.boundary (Http.connected net r.world)
    outcome (e.negotiate recipient request) r = .ok agreement ∧
    r'.book = r.book.put (e.lastLocalId r') ⟨e.lastLocalId r', agreement.id, some agreement⟩ ∧
    r'.book.find (e.lastLocalId r') = .ok ⟨e.lastLocalId r', agreement.id, some agreement⟩ ∧
    r'.calls = r.calls ++ [e.requestCall recipient request r] ∧
    (Mime.IsTokenText drawn.toList → drawn ≠ "" →
      ¬ Text.utf8 ("--" ++ drawn) <:+: Text.utf8 request.document →
      ∃ payload, decode (some posted.contentType) posted.body =
          .ok ⟨(e.requestCall recipient request r).header, payload⟩ ∧
        Contract.readPayload .request payload = .ok request) := by
  intro r' posted drawn
  have hgranted := granted_of_form htransport hconfirms ⟨hrecipient, hid⟩ hagreement hcompare hkind
    hb hboundary hfree hreply
  obtain ⟨end_, hperform, hcalls⟩ := perform_negotiate e recipient request r
  rw [decision_of_granted hexaminer hgranted] at hperform
  rw [negotiationCalls_of_granted hexaminer hgranted, hconfirms] at hcalls
  have hreturned : outcome (e.negotiate recipient request) r = .ok agreement :=
    congrArg Prod.fst hperform
  have hend : r' = end_ := congrArg Prod.snd hperform
  have hbook := book_of_negotiated hagreements hreturned
  refine ⟨hreturned, hbook, ?_, hend ▸ hcalls, posted_reads_back hrequest⟩
  rw [hbook]
  exact AgreementBook.find_of_mem (Entries.mem_of_get? r.book.get?_put_self)

/-- An agreement on an error status, with a further header field, is accepted. -/
theorem negotiate_over_http_withFormPeer :
    let e := withFormPeer 404 "a+b" (.ofPairs [("ids:note", "é"),
      ("@type", MessageKind.contractAgreement.tag)]) (.plain "urn:a")
    outcome (e.negotiate "https://peer" (.plain "urn:r")) (.start () .empty) =
      .ok (.plain "urn:a") := by
  -- a contract without a window has nothing that could not be written
  have hplain : ∀ id, (Contract.plain id).Documented := fun id =>
    Contract.documented_iff.2 ⟨fun _ h => (by cases h), fun _ h => (by cases h)⟩
  exact (negotiate_over_http (withFormPeer 404 "a+b" (.ofPairs [("ids:note", "é"),
      ("@type", MessageKind.contractAgreement.tag)]) (.plain "urn:a")) _ rfl rfl rfl rfl
    (by decide) (by decide) (hplain "urn:r") (hplain "urn:a") (by decide +kernel)
    (by decide +kernel) (forall_mem_of_all (by decide +kernel)) (by decide) (by decide +kernel)
    rfl).1

/-- An apostrophe ends an unquoted value, so that a form under such a boundary is not read: the same
agreement is not accepted. -/
theorem negotiate_over_http_apostrophe :
    let e := withFormPeer 200 "a'b" (.ofPairs [("@type", MessageKind.contractAgreement.tag)])
      (.plain "urn:a")
    (Contract.plain "urn:a").compare (.plain "urn:r") = [] ∧
      ¬ Text.utf8 ("--" ++ "a'b") <:+: Text.utf8 (Contract.plain "urn:a").document ∧
      outcome (e.negotiate "https://peer" (.plain "urn:r")) (.start () .empty) =
        .error (.transport .malformed (some "https://peer")) :=
  ⟨by decide +kernel, by decide +kernel, by decide +kernel⟩

end Engine

end Dataspace
