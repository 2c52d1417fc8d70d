import Dataspace.Proofs.Basic
import Dataspace.Proofs.Fields
import Dataspace.Proofs.NegotiationSteps

/-!
# When a negotiation succeeds, and how it fails

A negotiation passes six conditions in a fixed order. `Engine.Granted` lists them for an agreement,
and `Engine.Refused` says for each of them which family of failure it ends in when it is the first
that does not hold:

1. the peer and the request have a name (`Addressed`);
2. the transport brings a reply (`Replied`);
3. the reply is a contract agreement (`Offered`);
4. its payload holds a contract (`Readable`);
5. that contract is not at odds with the request (`Matching`);
6. if it is asked for, the peer takes the confirmation.

* **`granted_or_refused`** — the two leave nothing out.
* **`decision_of_granted`**, **`decision_of_refused`** — the decision of a negotiation follows them.
* **`negotiate_decision_table`** — a negotiation returns an agreement or fails just as they say.
-/

namespace Dataspace

open Exchange Negotiation

variable {σ : Type}

/-! ## What a reply holds -/

/-- The contract in the payload of a reply: a text, or octets that spell one in UTF-8, in which not
only blanks stand and which reads as that contract. -/
def Response.Holds (reply : Response) (agreement : Contract) : Prop :=
  ∃ body, reply.payload.toText .utf8 = .ok body ∧ body.isBlank = false ∧
    Contract.readPayload .agreement body = .ok agreement

namespace Examiner

variable {body : Received} {request agreement : Contract}

/-- A body that cannot be read as a contract is malformed. -/
theorem examine_unreadable (x : Examiner) (request : Contract)
    (h : ∀ a, body.isBlank = false →
      Contract.readPayload .agreement body ≠ .ok a) :
    ∃ flaw, (x.examine (some body) request).1 = .error (.agreement flaw) := by
  -- blank bodies and bodies that are no contract have flaws of their own
  have hflaw : ∃ flaw, Contract.readAgreement (some body) = .error flaw := by
    rw [Contract.readAgreement]
    cases hblank : body.isBlank with
    | true => exact ⟨.empty, rfl⟩
    | false =>
      cases hread : Contract.readPayload .agreement body with
      | error report => exact ⟨.invalid report, rfl⟩
      | ok a => exact absurd hread (h a hblank)
  obtain ⟨flaw, hflaw⟩ := hflaw
  refine ⟨flaw, ?_⟩
  rw [examine, hflaw]

/-- The strict examiner lets a readable contract pass exactly if nothing in it is at odds with the
request. -/
theorem examine_strict (hblank : body.isBlank = false)
    (hread : Contract.readPayload .agreement body = .ok agreement) :
    (strict.examine (some body) request).1 =
      if agreement.compare request = [] then .ok agreement
      else .error (.mismatch ((agreement.compare request).map Mismatch.text)) := by
  have hreadAgreement : Contract.readAgreement (some body) = .ok agreement := by
    rw [Contract.readAgreement, hblank, hread]
    rfl
  unfold examine
  rw [hreadAgreement]
  simp only [strict]
  cases agreement.compare request with
  | nil => rfl
  | cons m ms => rfl

end Examiner

/-! ## What a sender makes of an answer -/

namespace Negotiation

variable {env : Surroundings σ} {s : Service} {recipient : String} {c : Contract} {r : Run σ}

/-- With a peer and a contract that have names, the transport's answer decides. -/
theorem contractReply_sent (hs : s.profile.required = [.recipient, .subject])
    (hr : recipient ≠ "") (hc : c.id ≠ "") :
    contractReply env s recipient c r = s.judged recipient
      (s.answerAt env (.about s.profile.kind recipient c.id) (contractPayload c) r).result := by
  unfold contractReply
  rw [Profile.accept_about hs hr hc]

/-- Without one of the names nothing is sent. -/
theorem contractReply_refused (hs : s.profile.required = [.recipient, .subject])
    (h : recipient = "" ∨ c.id = "") :
    ∃ flaw, contractReply env s recipient c r = .error (.descriptor flaw) := by
  obtain ⟨flaw, hflaw⟩ := Profile.accept_about_refused hs h
  refine ⟨flaw, ?_⟩
  unfold contractReply
  rw [hflaw]

end Negotiation

/-! ## A peer that grants -/

/-- A contract between two parties, without a window and without rules. -/
def Contract.plain (id : String) : Contract :=
  ⟨id, "urn:consumer", "urn:provider", none, none, [], rfl⟩

/-- A peer that answers every request with one contract and takes every confirmation. -/
def Transport.granting (offer : Contract) : Transport Unit where
  name := "granting"
  send call _ :=
    let kind : MessageKind :=
      if call.header.get? "@type" = some MessageKind.contractRequest.tag then .contractAgreement
      else .messageProcessed
    ⟨.ok ⟨.ofPairs [("@type", kind.tag)], .text offer.document⟩, [], ()⟩
  close := none

/-- A connector with that peer, which keeps its agreements in memory and has them confirmed. -/
def Engine.withGrantingPeer (offer : Contract) : Engine Unit where
  identity := .settled "https://consumer" "4.2.7" fun _ => "token"
  transport := .granting offer
  uuidAt n := ⟨BitVec.ofNat 128 (Nat.pow 2 80 * (n + 1))⟩
  clock _ := ⟨⟨2026, 3, 1, by decide⟩, .midnight, .fixed .utc⟩
  persistence := .inMemory fun _ world => (none, world)
  agreements := .inMemory
  depth := Service.defaultDepth
  policy := .abort
  confirms := true
  examiner := .strict

namespace Engine

/-! ## The two messages and their answers -/

section Messages

variable (e : Engine σ) (recipient : String) (request agreement : Contract) (r : Run σ)

/-- The message that asks for the contract. -/
def requestCall : Call :=
  Service.contractRequests.callAt e.toSurroundings
    (.about .contractRequest recipient request.id) (contractPayload request) r.asked r.drawn

def requestAnswer : Outcome σ Response :=
  e.transport.send (e.requestCall recipient request r) r.world

/-- The message that sends the agreement back, the second one of a negotiation. -/
def confirmationCall : Call :=
  Service.contractAgreements.callAt e.toSurroundings
    (.about .contractAgreement recipient agreement.id) (contractPayload agreement)
    (r.asked + 1) (r.drawn + 1)

/-- What the transport does with the confirmation, in the surroundings that the request left. -/
def confirmationAnswer : Outcome σ Response :=
  e.transport.send (e.confirmationCall recipient agreement r)
    (e.requestAnswer recipient request r).world

end Messages

/-! ## The conditions, in their order -/

/-- The peer and the request have a name. -/
def Addressed (recipient : String) (request : Contract) : Prop :=
  recipient ≠ "" ∧ request.id ≠ ""

section Conditions

variable (e : Engine σ) (recipient : String) (request : Contract) (r : Run σ)

/-- The request could be sent, and the transport brought this reply. -/
def Replied (reply : Response) : Prop :=
  Addressed recipient request ∧ (e.requestAnswer recipient request r).result = .ok reply

/-- The reply declares itself to be a contract agreement. -/
def Offered (reply : Response) : Prop :=
  e.Replied recipient request r reply ∧ reply.kind = some MessageKind.contractAgreement.tag

/-- The reply holds a contract. -/
def Readable (agreement : Contract) : Prop :=
  ∃ reply, e.Offered recipient request r reply ∧ reply.Holds agreement

/-- That contract is not at odds with the request. -/
def Matching (agreement : Contract) : Prop :=
  e.Readable recipient request r agreement ∧ agreement.compare request = []

/-- The peer took the agreement back and said so. -/
def Confirmed (agreement : Contract) : Prop :=
  agreement.id ≠ "" ∧ ∃ receipt,
    (e.confirmationAnswer recipient request agreement r).result = .ok receipt ∧
      receipt.kind = some MessageKind.messageProcessed.tag

/-- All conditions hold. -/
def Granted (agreement : Contract) : Prop :=
  e.Matching recipient request r agreement ∧
    (e.confirms = true → e.Confirmed recipient request r agreement)

/-- One condition is the first that does not hold; it decides on the family of the failure. -/
inductive Refused : Family → Prop
  | unaddressed : ¬ Addressed recipient request → Refused .descriptor
  | unanswered {err : Error} : Addressed recipient request →
      (e.requestAnswer recipient request r).result = .error err → Refused .transport
  | otherKind {reply : Response} : e.Replied recipient request r reply →
      reply.kind ≠ some MessageKind.contractAgreement.tag → Refused .unexpectedKind
  | unreadable {reply : Response} : e.Offered recipient request r reply →
      (∀ agreement, ¬ reply.Holds agreement) → Refused .malformedAgreement
  | atOdds {agreement : Contract} : e.Readable recipient request r agreement →
      agreement.compare request ≠ [] → Refused .mismatch
  | nameless {agreement : Contract} : e.Matching recipient request r agreement →
      e.confirms = true → agreement.id = "" → Refused .descriptor
  | unconfirmed {agreement : Contract} {err : Error} : e.Matching recipient request r agreement →
      e.confirms = true → agreement.id ≠ "" →
      (e.confirmationAnswer recipient request agreement r).result = .error err →
      Refused .transport
  | otherReceipt {agreement : Contract} {receipt : Response} :
      e.Matching recipient request r agreement → e.confirms = true → agreement.id ≠ "" →
      (e.confirmationAnswer recipient request agreement r).result = .ok receipt →
      receipt.kind ≠ some MessageKind.messageProcessed.tag → Refused .unexpectedKind

end Conditions

section Table

variable {e : Engine σ} {recipient : String} {request agreement : Contract} {r : Run σ}

/-- Every negotiation is granted or refused: the conditions are tried one after another. -/
theorem granted_or_refused (e : Engine σ) (recipient : String) (request : Contract) (r : Run σ) :
    (∃ agreement, e.Granted recipient request r agreement) ∨
      ∃ family, e.Refused recipient request r family := by
  -- each test either refuses or gives what the next one asks for
  by_cases haddressed : Addressed recipient request
  case neg => exact .inr ⟨_, .unaddressed haddressed⟩
  cases hanswer : (e.requestAnswer recipient request r).result with
  | error err => exact .inr ⟨_, .unanswered haddressed hanswer⟩
  | ok reply =>
    have hreplied : e.Replied recipient request r reply := ⟨haddressed, hanswer⟩
    by_cases hkind : reply.kind = some MessageKind.contractAgreement.tag
    case neg => exact .inr ⟨_, .otherKind hreplied hkind⟩
    by_cases hholds : ∃ agreement, reply.Holds agreement
    case neg => exact .inr ⟨_, .unreadable ⟨hreplied, hkind⟩ fun a ha => hholds ⟨a, ha⟩⟩
    obtain ⟨agreement, hagreement⟩ := hholds
    have hreadable : e.Readable recipient request r agreement :=
      ⟨reply, ⟨hreplied, hkind⟩, hagreement⟩
    by_cases hcompare : agreement.compare request = []
    case neg => exact .inr ⟨_, .atOdds hreadable hcompare⟩
    have hmatching : e.Matching recipient request r agreement := ⟨hreadable, hcompare⟩
    by_cases hconfirms : e.confirms = true
    case neg => exact .inl ⟨agreement, hmatching, fun h => absurd h hconfirms⟩
    by_cases hid : agreement.id = ""
    case pos => exact .inr ⟨_, .nameless hmatching hconfirms hid⟩
    cases hreceipt : (e.confirmationAnswer recipient request agreement r).result with
    | error err => exact .inr ⟨_, .unconfirmed hmatching hconfirms hid hreceipt⟩
    | ok receipt =>
      by_cases hprocessed : receipt.kind = some MessageKind.messageProcessed.tag
      case neg => exact .inr ⟨_, .otherReceipt hmatching hconfirms hid hreceipt hprocessed⟩
      exact .inl ⟨agreement, hmatching, fun _ => ⟨hid, receipt, hreceipt, hprocessed⟩⟩

/-! ## The decision follows the conditions -/

theorem contractReply_request (h : Addressed recipient request) :
    contractReply e.toSurroundings .contractRequests recipient request r =
      Service.contractRequests.judged recipient (e.requestAnswer recipient request r).result :=
  contractReply_sent rfl h.1 h.2

theorem contractReply_of_offered {reply : Response} (h : e.Offered recipient request r reply) :
    contractReply e.toSurroundings .contractRequests recipient request r = .ok reply := by
  rw [contractReply_request h.1.1, h.1.2, Service.judged, if_pos (Service.accepts_iff.2 h.2)]

theorem contractSent_request (h : Addressed recipient request) :
    contractSent e.toSurroundings .contractRequests recipient request r =
      Service.contractRequests.exchanged e.toSurroundings
        (.about .contractRequest recipient request.id) (contractPayload request) r := by
  unfold contractSent
  rw [Profile.accept_about rfl h.1 h.2]
  rfl

/-- A readable agreement is what the strict examiner looks at. -/
theorem examined_of_readable (hx : e.examiner = .strict)
    (h : e.Readable recipient request r agreement) :
    examined e.toSurroundings e.examiner recipient request r =
      if agreement.compare request = [] then .ok agreement
      else .error (.mismatch ((agreement.compare request).map Mismatch.text)) := by
  obtain ⟨reply, hoffered, body, hbody, hblank, hread⟩ := h
  unfold examined
  -- the reply is accepted, its payload is a text, and the examiner gets this text
  rw [contractReply_of_offered hoffered, hx]
  simp only [hbody]
  exact Examiner.examine_strict hblank hread

theorem examined_of_matching (hx : e.examiner = .strict)
    (h : e.Matching recipient request r agreement) :
    examined e.toSurroundings e.examiner recipient request r = .ok agreement := by
  rw [examined_of_readable hx h.1, if_pos h.2]

/-- After a matching agreement only the confirmation is left to decide. -/
theorem decision_of_matching (hx : e.examiner = .strict)
    (h : e.Matching recipient request r agreement) :
    e.decision recipient request r =
      if e.confirms then
        (contractReply e.toSurroundings .contractAgreements recipient agreement
          (contractSent e.toSurroundings .contractRequests recipient request r)).map
            fun _ => agreement
      else .ok agreement := by
  rw [decision, examined_of_matching hx h]

theorem contractReply_confirmation (h : e.Matching recipient request r agreement)
    (hid : agreement.id ≠ "") :
    contractReply e.toSurroundings .contractAgreements recipient agreement
        (contractSent e.toSurroundings .contractRequests recipient request r) =
      Service.contractAgreements.judged recipient
        (e.confirmationAnswer recipient request agreement r).result := by
  obtain ⟨⟨reply, hoffered, -⟩, -⟩ := h
  have haddressed := hoffered.1.1
  rw [contractReply_sent rfl haddressed.1 hid, contractSent_request haddressed]
  rfl

theorem decision_of_granted (hx : e.examiner = .strict)
    (h : e.Granted recipient request r agreement) :
    e.decision recipient request r = .ok agreement := by
  rw [decision_of_matching hx h.1]
  -- without a confirmation nothing is left to decide
  cases hconfirms : e.confirms with
  | false => rfl
  | true =>
    obtain ⟨hid, receipt, hreceipt, hkind⟩ := h.2 hconfirms
    rw [contractReply_confirmation h.1 hid, hreceipt, Service.judged,
      if_pos (Service.accepts_iff.2 hkind)]
    rfl

theorem decision_of_refused (hx : e.examiner = .strict) {family : Family}
    (h : e.Refused recipient request r family) :
    ∃ err, e.decision recipient request r = .error err ∧ err.family = family := by
  cases h with
  | unaddressed haddressed =>
    have hempty : recipient = "" ∨ request.id = "" := by
      by_cases hr : recipient = ""
      · exact .inl hr
      · exact .inr (Classical.byContradiction fun hid => haddressed ⟨hr, hid⟩)
    obtain ⟨flaw, hflaw⟩ : ∃ flaw, contractReply e.toSurroundings .contractRequests recipient
        request r = .error (.descriptor flaw) :=
      contractReply_refused rfl hempty
    exact ⟨_, by rw [decision, examined, hflaw], rfl⟩
  | unanswered haddressed hanswer =>
    have hreply := contractReply_request (e := e) (r := r) haddressed
    rw [hanswer, Service.judged] at hreply
    exact ⟨_, by rw [decision, examined, hreply], Service.family_sendError _ _ _⟩
  | otherKind hreplied hkind =>
    have hreply := contractReply_request (e := e) (r := r) hreplied.1
    rw [hreplied.2, Service.judged, if_neg (mt Service.accepts_iff.1 hkind)] at hreply
    exact ⟨_, by rw [decision, examined, hreply], rfl⟩
  | @unreadable reply hoffered hholds =>
    -- the payload is no text at all, or the text is no contract
    cases hbody : reply.payload.toText .utf8 with
    | error fault =>
      refine ⟨.agreement (.notText fault), ?_, rfl⟩
      rw [decision, examined, contractReply_of_offered hoffered]
      simp only [hbody]
    | ok body =>
      obtain ⟨flaw, hflaw⟩ := e.examiner.examine_unreadable request
        fun a hblank hread => hholds a ⟨body, hbody, hblank, hread⟩
      refine ⟨.agreement flaw, ?_, rfl⟩
      rw [decision, examined, contractReply_of_offered hoffered]
      simp only [hbody, hflaw]
  | atOdds hreadable hcompare =>
    exact ⟨_, by rw [decision, examined_of_readable hx hreadable, if_neg hcompare], rfl⟩
  | @nameless agreement hmatching hconfirms hid =>
    obtain ⟨flaw, hflaw⟩ : ∃ flaw, contractReply e.toSurroundings .contractAgreements recipient
        agreement (contractSent e.toSurroundings .contractRequests recipient request r) =
          .error (.descriptor flaw) :=
      contractReply_refused rfl (.inr hid)
    exact ⟨_, by rw [decision_of_matching hx hmatching, if_pos hconfirms, hflaw]; rfl, rfl⟩
  | unconfirmed hmatching hconfirms hid hanswer =>
    have hreply := contractReply_confirmation hmatching hid
    rw [hanswer, Service.judged] at hreply
    exact ⟨_, by rw [decision_of_matching hx hmatching, if_pos hconfirms, hreply]; rfl,
      Service.family_sendError _ _ _⟩
  | otherReceipt hmatching hconfirms hid hanswer hkind =>
    have hreply := contractReply_confirmation hmatching hid
    rw [hanswer, Service.judged, if_neg (mt Service.accepts_iff.1 hkind)] at hreply
    exact ⟨_, by rw [decision_of_matching hx hmatching, if_pos hconfirms, hreply]; rfl, rfl⟩

/-- The messages of a negotiation that is granted: the request, and the confirmation if it is asked
for. -/
theorem negotiationCalls_of_granted (hx : e.examiner = .strict)
    (h : e.Granted recipient request r agreement) :
    e.negotiationCalls recipient request r =
      e.requestCall recipient request r ::
        (if e.confirms then [e.confirmationCall recipient agreement r] else []) := by
  obtain ⟨reply, hoffered, -⟩ := h.1.1
  have haddressed := hoffered.1.1
  have hrequest : contractCalls e.toSurroundings .contractRequests recipient request r =
      [e.requestCall recipient request r] := by
    unfold contractCalls
    rw [Profile.accept_about rfl haddressed.1 haddressed.2]
    rfl
  rw [negotiationCalls, examined_of_matching hx h.1, hrequest]
  cases hconfirms : e.confirms with
  | false => rfl
  | true =>
    have hconfirmation : contractCalls e.toSurroundings .contractAgreements recipient agreement
        (contractSent e.toSurroundings .contractRequests recipient request r) =
          [e.confirmationCall recipient agreement r] := by
      rw [contractSent_request haddressed]
      unfold contractCalls
      rw [Profile.accept_about rfl haddressed.1 (h.2 hconfirms).1]
      rfl
    simp only [if_true, hconfirmation, List.singleton_append]

end Table

/-- The confirmation goes to the same peer, names the agreement as the transfer contract and carries
its document. -/
theorem confirmationCall_fields (e : Engine σ) (recipient : String) {agreement : Contract}
    (hid : agreement.id ≠ "") (r : Run σ) :
    (e.confirmationCall recipient agreement r).recipient = recipient ∧
      (e.confirmationCall recipient agreement r).header.get? "@type" =
        some MessageKind.contractAgreement.tag ∧
      (e.confirmationCall recipient agreement r).header.get? "ids:transferContract" =
        some agreement.id ∧
      (e.confirmationCall recipient agreement r).payload = .text agreement.document := by
  have hfilled : Service.filled (some agreement.id) = some agreement.id := by
    rw [Service.filled_some, if_neg hid]
  refine ⟨rfl, Message.get?_header_type List.not_mem_nil, ?_, rfl⟩
  refine (Message.get?_header_transferContract List.not_mem_nil).trans ?_
  -- the agreement is the subject, and the subject goes where the transfer contract goes
  simp only [Service.message, Service.subjectFor, Descriptor.about]
  rw [show Service.contractAgreements.profile.subject = some .transferContract from rfl,
    if_pos rfl, hfilled]
  rfl

/-- **The decision table of a negotiation.** With the strict examiner a negotiation returns an
agreement exactly if all conditions hold for it, and fails otherwise, in the family of the first
condition that does not. The messages of one that is granted are the request and, if it is asked
for, the confirmation. -/
theorem negotiate_decision_table (e : Engine σ) (hx : e.examiner = .strict) (recipient : String)
    (request : Contract) (r : Run σ) :
    (∀ agreement, outcome (e.negotiate recipient request) r = .ok agreement ↔
      e.Granted recipient request r agreement) ∧
    (∀ family, (∃ err, outcome (e.negotiate recipient request) r = .error err ∧
      err.family = family) ↔ e.Refused recipient request r family) ∧
    (∀ agreement, e.Granted recipient request r agreement →
      (after (e.negotiate recipient request) r).calls =
        r.calls ++ e.requestCall recipient request r ::
          (if e.confirms then [e.confirmationCall recipient agreement r] else [])) ∧
    (∀ agreement, agreement.id ≠ "" →
      (e.confirmationCall recipient agreement r).recipient = recipient ∧
      (e.confirmationCall recipient agreement r).header.get? "@type" =
        some MessageKind.contractAgreement.tag ∧
      (e.confirmationCall recipient agreement r).header.get? "ids:transferContract" =
        some agreement.id ∧
      (e.confirmationCall recipient agreement r).payload = .text agreement.document) := by
  obtain ⟨r', hperform, hcalls⟩ := perform_negotiate e recipient request r
  have houtcome : outcome (e.negotiate recipient request) r = e.decision recipient request r := by
    rw [outcome, hperform]
  rw [houtcome]
  refine ⟨fun agreement => ⟨fun hdecision => ?_, decision_of_granted hx⟩,
    fun family => ⟨?_, decision_of_refused hx⟩, fun agreement hgranted => ?_,
    fun agreement hid => e.confirmationCall_fields recipient hid r⟩
  · -- a refusal would have decided otherwise
    rcases granted_or_refused e recipient request r with ⟨a, ha⟩ | ⟨family, hfamily⟩
    · cases (decision_of_granted hx ha).symm.trans hdecision
      exact ha
    · obtain ⟨err, herr, -⟩ := decision_of_refused hx hfamily
      cases herr.symm.trans hdecision
  · rintro ⟨err, herr, rfl⟩
    rcases granted_or_refused e recipient request r with ⟨a, ha⟩ | ⟨family, hfamily⟩
    · cases (decision_of_granted hx ha).symm.trans herr
    · obtain ⟨err', herr', rfl⟩ := decision_of_refused hx hfamily
      cases herr'.symm.trans herr
      exact hfamily
  · rw [after, hperform, hcalls, negotiationCalls_of_granted hx hgranted]

/-- The granting peer grants what it offers, and nobody is asked for anything without a name. -/
theorem negotiate_withGrantingPeer :
    outcome ((withGrantingPeer (.plain "urn:a")).negotiate "https://peer" (.plain "urn:r"))
        (.start () .empty) = .ok (.plain "urn:a") ∧
      ∃ err, outcome ((withGrantingPeer (.plain "urn:a")).negotiate "" (.plain "urn:r"))
        (.start () .empty) = .error err ∧ err.family = .descriptor := by
  have hread : Contract.readPayload .agreement (.text (Contract.plain "urn:a").document) =
      .ok (.plain "urn:a") := ok_of_toOption (by decide +kernel)
  have hanswer : ((withGrantingPeer (.plain "urn:a")).requestAnswer "https://peer" (.plain "urn:r")
      (.start () .empty)).result = .ok ⟨.ofPairs [("@type", MessageKind.contractAgreement.tag)],
        .text (Contract.plain "urn:a").document⟩ := ok_of_toOption (by decide +kernel)
  have hreceipt : ((withGrantingPeer (.plain "urn:a")).confirmationAnswer "https://peer"
      (.plain "urn:r") (.plain "urn:a") (.start () .empty)).result =
        .ok ⟨.ofPairs [("@type", MessageKind.messageProcessed.tag)],
          .text (Contract.plain "urn:a").document⟩ := ok_of_toOption (by decide +kernel)
  have hmatching : (withGrantingPeer (.plain "urn:a")).Matching "https://peer" (.plain "urn:r")
      (.start () .empty) (.plain "urn:a") :=
    ⟨⟨_, ⟨⟨⟨by decide, by decide⟩, hanswer⟩, by decide +kernel⟩, _, rfl, by decide +kernel, hread⟩,
      by decide +kernel⟩
  have hrefused : (withGrantingPeer (.plain "urn:a")).Refused "" (.plain "urn:r")
      (.start () .empty) .descriptor :=
    .unaddressed fun h => h.1 rfl
  exact ⟨((negotiate_decision_table _ rfl _ _ _).1 _).2
      ⟨hmatching, fun _ => ⟨by decide, _, hreceipt, by decide +kernel⟩⟩,
    ((negotiate_decision_table _ rfl _ _ _).2.1 _).2 hrefused⟩

end Engine

end Dataspace
