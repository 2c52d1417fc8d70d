import Dataspace.Proofs.HttpNegotiation
import Dataspace.Proofs.ReplyFaults

/-!
# What comes of a message over HTTP

A message is posted once. What the sender gets then depends on three things of the reply that may go
any way together: its content type, its status, and whether it can be read. `Rule` is the table of
all cases.

* **`fault_of_decode`** — a failure to read that belongs to the transport does not know the peer
  yet.
* **`receive_status`**, **`receive_read`**, **`receive_fault`**, **`receive_foreign`** — the four
  ways that a reply can go.
* **`send_follows_rule`** — one request is posted, and the rule gives the result.
-/

namespace Dataspace

open Multipart
open Text (Octets)

theorem Multipart.fault_of_decode {contentType : Option String} {body : Octets} {e : Error}
    (h : decode contentType body = .error e) (hfamily : e.family = .transport) :
    ∃ fault, e = .transport fault none := by
  have hreading := reading_decode contentType body
  rw [h] at hreading
  cases hreading with
  | otherForm => exact ⟨_, rfl⟩
  | noHeader => exact ⟨_, rfl⟩
  | noParts _ _ hparts =>
    rcases readParts_error hparts with rfl | ⟨fault, rfl, -⟩ | ⟨fault, rfl⟩
    · exact ⟨_, rfl⟩
    · cases hfamily
    · cases fault <;> cases hfamily
  | badHeader _ _ _ hheader =>
    rcases readHeader_error hheader with hfault | ⟨cs, -, ⟨n, rfl, -⟩ | ⟨isObject, rfl, -⟩⟩
    · exact hfault
    · cases hfamily
    · cases hfamily

namespace Http

variable {σ : Type} {recipient : String} {reply : Reply}

/-- What can be read of a reply, whatever its status. A content type that is missing counts as
empty. -/
def Reply.response (reply : Reply) : Except Error Response :=
  decode (some (reply.contentType.getD "")) reply.body

/-- The sender gets a failure of the transport that is about the recipient and says this. -/
def Raises (recipient text : String) (result : Except Error Response) : Prop :=
  ∃ e, result = .error e ∧ e.family = .transport ∧ e.recipient = some recipient ∧ e.message = text

/-- **The rule** from what came for a message to what its sender gets. -/
structure Rule (recipient : String) (came : Except Failure Reply)
    (result : Except Error Response) : Prop where
  /-- A message in parts is what the sender gets, on every status, and it gets no other. -/
  read : ∀ response, result = .ok response ↔
    ∃ reply, came = .ok reply ∧ isMultipart reply.contentType = true ∧
      reply.response = .ok response
  timeout : ∀ detail, came = .error (.timeout detail) →
    Raises recipient ("Timeout: " ++ detail) result
  network : ∀ detail, came = .error (.network detail) →
    Raises recipient ("Network error: " ++ detail) result
  /-- A reply that is not in parts counts by its status alone. -/
  status : ∀ reply, came = .ok reply → isMultipart reply.contentType = false →
    ¬ (200 ≤ reply.status ∧ reply.status < 300) →
    Raises recipient ("Peer answered HTTP " ++ Decimal.ofNat reply.status) result
  /-- A reply in parts that cannot be read is reported with the status of an error. -/
  unreadable : ∀ reply fault, came = .ok reply → isMultipart reply.contentType = true →
    reply.response = .error fault → fault.family = .transport →
    400 ≤ reply.status → reply.status < 600 →
    Raises recipient
      ("Peer answered HTTP " ++ Decimal.ofNat reply.status ++ ": " ++ fault.message) result
  /-- In all other cases a reply that cannot be read is reported as such. -/
  refused : ∀ reply fault, came = .ok reply → reply.response = .error fault →
    fault.family = .transport →
    (isMultipart reply.contentType = false → 200 ≤ reply.status ∧ reply.status < 300) →
    (isMultipart reply.contentType = true → ¬ (400 ≤ reply.status ∧ reply.status < 600)) →
    Raises recipient fault.message result
  /-- Failures of other kinds pass as they are. -/
  foreign : ∀ e, came = .error (.other e) ∨
      (∃ reply, came = .ok reply ∧ isMultipart reply.contentType = true ∧
        reply.response = .error e ∧ e.family ≠ .transport) →
    result = .error e

/-! ## Replies -/

theorem isMultipart_getD (contentType : Option String) :
    isMultipart (some (contentType.getD "")) = isMultipart contentType := by
  cases contentType with
  | none => decide
  | some t => rfl

theorem Reply.isSuccess_iff : reply.isSuccess = true ↔ 200 ≤ reply.status ∧ reply.status < 300 := by
  simp [isSuccess]

theorem Reply.isError_iff : reply.isError = true ↔ 400 ≤ reply.status ∧ reply.status < 600 := by
  simp [isError]

theorem receive_status (hparts : isMultipart reply.contentType = false)
    (hstatus : reply.isSuccess = false) :
    (receive recipient (.ok reply)).1 =
      .error (.transport (.status reply.status) (some recipient)) := by
  unfold receive
  simp only [hparts, hstatus, Bool.not_false, Bool.and_self, if_true]

/-- Only a reply that is not in parts is not looked into, and only without success. -/
theorem receive_eq (h : isMultipart reply.contentType = true ∨ reply.isSuccess = true) :
    receive recipient (.ok reply) = receiveParts recipient reply := by
  unfold receive
  rcases h with h | h <;> simp [h]

theorem receive_read (hparts : isMultipart reply.contentType = true) {response : Response}
    (h : reply.response = .ok response) : (receive recipient (.ok reply)).1 = .ok response := by
  rw [Reply.response] at h
  rw [receive_eq (.inl hparts), receiveParts, h]

theorem receive_fault (hlooked : isMultipart reply.contentType = true ∨ reply.isSuccess = true)
    {fault : TransportFault} (h : reply.response = .error (.transport fault none)) :
    (receive recipient (.ok reply)).1 =
      .error (if reply.isError then .unreadableReply reply.status fault recipient
        else .transport fault (some recipient)) := by
  rw [Reply.response] at h
  rw [receive_eq hlooked, receiveParts, h]
  cases reply.isError with
  | true => rfl
  | false => rfl

theorem receive_foreign (hparts : isMultipart reply.contentType = true) {e : Error}
    (h : reply.response = .error e) (hfamily : e.family ≠ .transport) :
    (receive recipient (.ok reply)).1 = .error e := by
  rw [Reply.response] at h
  rw [receive_eq (.inl hparts), receiveParts, h]
  cases e with
  | transport fault recipient => exact absurd rfl hfamily
  | _ => rfl

/-- Nothing is read of a reply that is not in parts. -/
theorem Reply.response_of_plain (hparts : isMultipart reply.contentType = false) :
    reply.response = .error (.transport (.notMultipart (some (reply.contentType.getD ""))) none) :=
  decode_of_not_isMultipart ((isMultipart_getD reply.contentType).trans hparts)

/-- A response was read from the reply. -/
theorem read_of_receive {response : Response}
    (h : (receive recipient (.ok reply)).1 = .ok response) :
    isMultipart reply.contentType = true ∧ reply.response = .ok response := by
  cases hparts : isMultipart reply.contentType with
  | false =>
    cases hstatus : reply.isSuccess with
    | false =>
      rw [receive_status hparts hstatus] at h
      cases h
    | true =>
      rw [receive_fault (.inr hstatus) (Reply.response_of_plain hparts)] at h
      cases h
  | true =>
    refine ⟨rfl, ?_⟩
    cases hresponse : reply.response with
    | ok found =>
      rw [receive_read hparts hresponse] at h
      exact h
    | error e =>
      by_cases hfamily : e.family = .transport
      · obtain ⟨fault, rfl⟩ := fault_of_decode hresponse hfamily
        rw [receive_fault (.inl hparts) hresponse] at h
        cases h
      · rw [receive_foreign hparts hresponse hfamily] at h
        cases h

/-- What a reply in parts or with success is reported as, if it cannot be read. -/
theorem raises_of_fault (recipient : String)
    (hlooked : isMultipart reply.contentType = true ∨ reply.isSuccess = true) {e : Error}
    (h : reply.response = .error e) (hfamily : e.family = .transport) :
    Raises recipient
      (if reply.isError then
          "Peer answered HTTP " ++ Decimal.ofNat reply.status ++ ": " ++ e.message
        else e.message) (receive recipient (.ok reply)).1 := by
  obtain ⟨fault, rfl⟩ := fault_of_decode h hfamily
  refine ⟨_, receive_fault hlooked h, ?_⟩
  cases reply.isError with
  | true => exact ⟨rfl, rfl, rfl⟩
  | false => exact ⟨rfl, rfl, rfl⟩

/-- What is made of anything that can come follows the rule. -/
theorem rule_receive (recipient : String) (came : Except Failure Reply) :
    Rule recipient came (receive recipient came).1 where
  read response := by
    constructor
    · intro h
      cases came with
      | error failure => cases failure <;> cases h
      | ok reply => exact ⟨reply, rfl, read_of_receive h⟩
    · rintro ⟨reply, rfl, hparts, hresponse⟩
      exact receive_read hparts hresponse
  timeout := by
    rintro detail rfl
    exact ⟨_, rfl, rfl, rfl, rfl⟩
  network := by
    rintro detail rfl
    exact ⟨_, rfl, rfl, rfl, rfl⟩
  status := by
    rintro reply rfl hparts hstatus
    have hfailed : reply.isSuccess = false :=
      Bool.eq_false_iff.2 fun h => hstatus (Reply.isSuccess_iff.1 h)
    exact ⟨_, receive_status hparts hfailed, rfl, rfl, rfl⟩
  unreadable := by
    rintro reply fault rfl hparts hresponse hfamily hlow hhigh
    have hraises := raises_of_fault recipient (.inl hparts) hresponse hfamily
    rwa [if_pos (Reply.isError_iff.2 ⟨hlow, hhigh⟩)] at hraises
  refused := by
    rintro reply fault rfl hresponse hfamily hplain hparted
    cases hparts : isMultipart reply.contentType with
    | true =>
      have hraises := raises_of_fault recipient (.inl hparts) hresponse hfamily
      rwa [if_neg fun h => hparted hparts (Reply.isError_iff.1 h)] at hraises
    | false =>
      -- a status of success is no status of an error
      obtain ⟨hlow, hhigh⟩ := hplain hparts
      have hraises := raises_of_fault recipient (.inr (Reply.isSuccess_iff.2 ⟨hlow, hhigh⟩))
        hresponse hfamily
      rwa [if_neg fun h => by have := Reply.isError_iff.1 h; omega] at hraises
  foreign := by
    rintro e (rfl | ⟨reply, rfl, hparts, hresponse, hfamily⟩)
    · rfl
    · exact receive_foreign hparts hresponse hfamily

/-! ## Sending -/

/-- The net, with a record of the requests that it was given. -/
def Network.recorded (net : Network σ) : Network (σ × List Request) where
  exchange request world :=
    ((net.exchange request world.1).1, (net.exchange request world.1).2, world.2 ++ [request])
  boundary world := net.boundary world.1
  connections world := net.connections world.1
  withConnections connections world := (net.withConnections connections world.1, world.2)

/-- **What comes of a message over HTTP.** Whatever net it is sent over, one request is given to the
net, a POST to the recipient with the message as a form; and what the sender gets follows the rule
from what came for this request. -/
theorem send_follows_rule (net : Network σ) (call : Call) (world : σ) (earlier : List Request) :
    (∃ boundary, posted net call world = ⟨"POST", call.recipient, formType boundary,
      frame boundary (filesOf call.header call.payload)⟩) ∧
    (send net.recorded call (world, earlier)).world =
      ((send net call world).world, earlier ++ [posted net call world]) ∧
    (send net.recorded call (world, earlier)).result = (send net call world).result ∧
    Rule call.recipient (answered net call world) (send net call world).result :=
  ⟨⟨_, rfl⟩, rfl, rfl, rule_receive call.recipient (answered net call world)⟩

end Http

end Dataspace
