import Dataspace.Engine
import Dataspace.Proofs.ArtifactTurns
import Dataspace.Proofs.NegotiationOutcome

/-!
# A download of artifacts as its caller sees it

The engine looks the agreement up once and gives each artifact its turn. This module says in the
caller's words what the turns are: which request an artifact with a name makes (`Happens`), what a
result says of its turn (`Turn.Reported`), and what ends a download before its list is through
(`Turn.Ended`).

* **`traffic_downloadArtifacts`**, **`ending_downloadArtifacts`** — the engine does what the turns
  do, whatever the names are.
* **`downloadArtifacts_course`** — the whole course, for a peer, artifacts and an agreement with
  names.
-/

namespace Dataspace

open Exchange Download

variable {σ : Type}

namespace Download

/-! ## The request for an artifact -/

namespace Batch

variable (b : Batch σ) (name : String) (r : Run σ)

theorem get?_call_type :
    (b.call name r).header.get? "@type" = some MessageKind.artifactRequest.tag :=
  Message.get?_header_type List.not_mem_nil

theorem get?_call_requestedArtifact :
    (b.call name r).header.get? "ids:requestedArtifact" = Service.filled (some name) :=
  Message.get?_header_requestedArtifact List.not_mem_nil

/-- The agreement goes out as the transfer contract, unless its name is empty. -/
theorem get?_call_transferContract :
    (b.call name r).header.get? "ids:transferContract" =
      Service.filled (some b.transferContract) :=
  Message.get?_header_transferContract List.not_mem_nil

theorem eq_call_of_fate {b : Batch σ} {name : String} {r : Run σ} {call : Call}
    (h : (b.fate name r).call? = some call) : call = b.call name r := by
  rcases b.fate_cases name r with ⟨flaw, hfate⟩ | ⟨err, -, hfate⟩ | ⟨reply, -, hfate⟩
  · rw [hfate] at h
    cases h
  · rw [hfate] at h
    exact (Option.some.inj h).symm
  · rw [hfate] at h
    exact (Option.some.inj h).symm

/-- What happens to an artifact with a name: it is asked for, and what the peer answers goes to the
store if it is a reply to such a request. -/
inductive Happens (b : Batch σ) (name : String) (r : Run σ) : Fate → Prop
  | unanswered {err : Error} (reply : b.reply name r = .error err)
      (family : err.family = .transport ∨ err.family = .unexpectedKind) :
      Happens b name r (.unanswered (b.call name r) err)
  | handed {reply : Response}
      (answer : (b.env.transport.send (b.call name r) r.world).result = .ok reply) :
      Happens b name r (.handed (b.call name r) reply
        (outcome (save b.persistence (.data reply name)) (b.answered name r)))

theorem Happens.call?_eq {b : Batch σ} {name : String} {r : Run σ} {fate : Fate}
    (h : b.Happens name r fate) : fate.call? = some (b.call name r) := by
  cases h <;> rfl

variable {b name}

theorem accept_artifact (hrecipient : b.recipient ≠ "") (hname : name ≠ "") :
    Profile.artifactRequest.accept (some (b.descriptor name)) = .ok (b.descriptor name) := by
  simp [Profile.accept, Profile.missing, Profile.artifactRequest, descriptor, Descriptor.artifact,
    DescriptorField.filledIn, hrecipient, hname]

theorem happens_fate (hrecipient : b.recipient ≠ "") (hname : name ≠ "") :
    b.Happens name r (b.fate name r) := by
  have haccept := accept_artifact hrecipient hname
  cases hreply : b.reply name r with
  | error err =>
    rw [fate_unanswered haccept hreply]
    exact .unanswered hreply (Service.family_of_judged hreply)
  | ok reply =>
    rw [fate_handed haccept hreply rfl]
    exact .handed (Service.answer_of_judged hreply)

section Turns

variable {b : Batch σ} {policy : FailurePolicy} {names : List String} {r : Run σ} {t : Turn}

theorem prefix_turns (b : Batch σ) (policy : FailurePolicy) (names : List String) (r : Run σ) :
    (b.turns policy names r).map Turn.artifact <+: names :=
  (b.course policy names r).prefix_artifacts

theorem named_of_turns (hnames : ∀ name ∈ names, name ≠ "") (ht : t ∈ b.turns policy names r) :
    t.artifact ≠ "" :=
  hnames _ ((b.prefix_turns policy names r).subset (List.mem_map_of_mem ht))

/-- What happens in a turn happens where the turns before it end. -/
theorem happens_of_turns (hrecipient : b.recipient ≠ "") (hnames : ∀ name ∈ names, name ≠ "")
    {earlier later : List Turn} (h : b.turns policy names r = earlier ++ t :: later) :
    b.Happens t.artifact (b.passedAll (earlier.map Turn.artifact) r) t.fate := by
  have ht : t ∈ b.turns policy names r := by
    rw [h]
    exact List.mem_append_right _ List.mem_cons_self
  have hfate : t.fate = b.fate t.artifact (b.passedAll (earlier.map Turn.artifact) r) :=
    congrArg Turn.fate (b.turns_eq_turn policy names h)
  rw [hfate]
  exact happens_fate _ hrecipient (named_of_turns hnames ht)

end Turns

end Batch

/-! ## What a caller learns of a turn -/

namespace Turn

/-- The result of a turn: the artifact was stored, or the store failed in a way of its own and the
policy is to carry on. -/
inductive Reported (policy : FailurePolicy) : Turn → ArtifactResult → Prop
  | stored {name : String} {call : Call} {reply : Response} :
      Reported policy ⟨name, .handed call reply (.ok ())⟩ ⟨name, none⟩
  | unstored {name : String} {call : Call} {reply : Response} {cause failure : Error}
      (carriesOn : policy = .carryOn) (isStoreFailure : cause.isStoreFailure = true)
      (family : failure.family = .persistence) (raisedFrom : failure.cause = some cause) :
      Reported policy ⟨name, .handed call reply (.error cause)⟩ ⟨name, some failure⟩

/-- The turn that a download ends at: no reply came, the store failed in a way that is not its own,
or it failed in a way of its own and the policy is to abort. -/
inductive Ended (policy : FailurePolicy) (err : Error) : Turn → Prop
  | unanswered {name : String} {call : Call}
      (family : err.family = .transport ∨ err.family = .unexpectedKind) :
      Ended policy err ⟨name, .unanswered call err⟩
  | foreign {name : String} {call : Call} {reply : Response}
      (isStoreFailure : err.isStoreFailure = false) :
      Ended policy err ⟨name, .handed call reply (.error err)⟩
  | unstored {name : String} {call : Call} {reply : Response} {cause : Error}
      (aborts : policy = .abort) (isStoreFailure : cause.isStoreFailure = true)
      (family : err.family = .persistence) (raisedFrom : err.cause = some cause) :
      Ended policy err ⟨name, .handed call reply (.error cause)⟩

variable {policy : FailurePolicy} {t : Turn}

theorem reported_of_verdict {result : ArtifactResult} (h : t.verdict policy = .ok result) :
    t.Reported policy result := by
  obtain ⟨name, fate⟩ := t
  cases fate with
  | unasked err => cases h
  | unanswered call err => cases h
  | handed call reply saving =>
    cases saving with
    | ok _ =>
      cases h
      exact .stored
    | error cause =>
      cases hfailure : cause.isStoreFailure with
      | false => cases (Fate.verdict_foreign hfailure policy).symm.trans h
      | true =>
        cases policy with
        | abort => cases (Fate.verdict_abort hfailure).symm.trans h
        | carryOn =>
          cases (Fate.verdict_carryOn hfailure).symm.trans h
          exact .unstored rfl hfailure rfl rfl

/-- A turn with a request ends the download in one of three ways. -/
theorem ended_of_verdict {b : Batch σ} {r : Run σ} {err : Error}
    (hhappens : b.Happens t.artifact r t.fate) (h : t.verdict policy = .error err) :
    t.Ended policy err := by
  obtain ⟨name, fate⟩ := t
  rw [show (⟨name, fate⟩ : Turn).artifact = name from rfl] at hhappens
  -- on what happens and not on the fate: nothing happens without a request
  cases hhappens with
  | unanswered reply family =>
    cases h
    exact .unanswered family
  | @handed reply answer =>
    cases hsaving : outcome (save b.persistence (.data reply name)) (b.answered name r) with
    | ok _ =>
      simp only [hsaving] at h
      cases h
    | error cause =>
      simp only [hsaving] at h ⊢
      cases hfailure : cause.isStoreFailure with
      | false =>
        cases (Fate.verdict_foreign hfailure policy).symm.trans h
        exact .foreign hfailure
      | true =>
        cases policy with
        | carryOn => cases (Fate.verdict_carryOn hfailure).symm.trans h
        | abort =>
          cases (Fate.verdict_abort hfailure).symm.trans h
          exact .unstored rfl hfailure rfl rfl

end Turn

end Download

/-! ## A peer that serves -/

/-- A peer that answers every request for a contract with one, and every other request with data. -/
def Transport.serving (offer : Contract) : Transport Unit where
  name := "serving"
  send call _ :=
    if call.header.get? "@type" = some MessageKind.contractRequest.tag then
      ⟨.ok ⟨.ofPairs [("@type", MessageKind.contractAgreement.tag)], .text offer.document⟩, [], ()⟩
    else ⟨.ok ⟨.ofPairs [("@type", MessageKind.artifactResponse.tag)], .text "data"⟩, [], ()⟩
  close := none

def diskFull : Error :=
  .reported (.system "OSError") "[Errno 28] No space left on device" none

/-- A connector with that peer; its disk has no room for one artifact. -/
def Engine.withServingPeer (offer : Contract) (policy : FailurePolicy) : Engine Unit where
  toSurroundings := { (withGrantingPeer offer).toSurroundings with transport := .serving offer }
  persistence := .inMemory fun s world =>
    match s with
    | .data _ "urn:huge" => (some diskFull, world)
    | _ => (none, world)
  agreements := .inMemory
  depth := Service.defaultDepth
  policy := policy
  confirms := false
  examiner := .strict

/-- A connector with the shelves of this library whose peer sends half of a character as data. -/
def Engine.withBrokenPeer : Engine Unit :=
  { withServingPeer (.plain "urn:a") .abort with
    persistence := .unhindered
    transport :=
      { name := "broken"
        send := fun _ _ =>
          ⟨.ok ⟨.ofPairs [("@type", MessageKind.artifactResponse.tag)],
            .broken ⟨[0xD800], rfl, rfl⟩⟩, [], ()⟩
        close := none } }

/-- The beginning of a run with one agreement. -/
def Run.entitled : Run Unit :=
  .start () (.ofRecords [⟨"agr", "urn:a", none⟩])

/-! ## The engine's download -/

namespace Engine

/-- The artifacts of a peer, as this engine asks for them and keeps them. -/
def batch (e : Engine σ) (recipient transferContract : String) : Batch σ :=
  ⟨e.toSurroundings, e.persistence, recipient, transferContract⟩

section Turns

variable {e : Engine σ} {id : String} {record : AgreementRecord} {r : Run σ}
  (h : outcome (findAgreement e.agreements id) r = .ok record) (recipient : String)
  (names : List String)
include h

/-- After the agreement is found there is a note, and then the artifacts have their turns. -/
theorem perform_downloadArtifacts :
    ∃ note : Note, perform (e.downloadArtifacts recipient names id) r =
      perform ((e.batch recipient record.remoteId).artifacts e.policy names)
        (r.extended (Event.ofNotes .artifacts [note])) := by
  have hfound : perform (findAgreement e.agreements id) r = (.ok record, r) :=
    Prod.ext h (after_findAgreement e.agreements id r)
  unfold downloadArtifacts
  rw [perform_bind_ok hfound, perform_bind_ok (perform_note _ _ _ _)]
  exact ⟨_, rfl⟩

/-- The requests and saves are those of the turns. -/
theorem traffic_downloadArtifacts :
    (after (e.downloadArtifacts recipient names id) r).traffic =
      r.traffic ++
        ((e.batch recipient record.remoteId).turns e.policy names r).flatMap Turn.traffic := by
  obtain ⟨note, hperform⟩ := perform_downloadArtifacts h recipient names
  rw [after, hperform]
  have htraffic := (e.batch recipient record.remoteId).traffic_artifacts e.policy names
    (r.extended (Event.ofNotes .artifacts [note]))
  rw [Batch.turns_extended, Run.traffic_extended, Event.filter_isTraffic_ofNotes,
    List.append_nil] at htraffic
  exact htraffic

/-- The results are those of the turns, and so is the error. -/
theorem ending_downloadArtifacts :
    Batch.Ending e.policy names ((e.batch recipient record.remoteId).turns e.policy names r)
      (outcome (e.downloadArtifacts recipient names id) r) := by
  obtain ⟨note, hperform⟩ := perform_downloadArtifacts h recipient names
  have hcourse := (e.batch recipient record.remoteId).course e.policy names
    (r.extended (Event.ofNotes .artifacts [note]))
  rw [Batch.turns_extended] at hcourse
  rw [outcome, hperform]
  exact hcourse

end Turns

/-- **The course of a download of artifacts.** With a peer, artifacts and an agreement that have
names, there is one turn for each artifact up to where the download ends. Each turn makes one request
of the peer under the agreement, and then one save of the reply if there is one. A download that
returns has a result for every artifact of the list, in its order; one that fails ends at the first
turn without a result. -/
theorem downloadArtifacts_course (e : Engine σ) {recipient id : String} {names : List String}
    {record : AgreementRecord} {r : Run σ} (hrecipient : recipient ≠ "")
    (hnames : ∀ name ∈ names, name ≠ "")
    (hrecord : outcome (findAgreement e.agreements id) r = .ok record)
    (hremote : record.remoteId ≠ "") :
    let b := e.batch recipient record.remoteId
    ∃ turns : List Turn,
      (after (e.downloadArtifacts recipient names id) r).traffic =
        r.traffic ++ turns.flatMap Turn.traffic ∧
      turns.map Turn.artifact <+: names ∧
      (∀ earlier t later, turns = earlier ++ t :: later →
        b.Happens t.artifact (b.passedAll (earlier.map Turn.artifact) r) t.fate) ∧
      (∀ t ∈ turns, ∃ call, t.fate.call? = some call ∧
        call.recipient = recipient ∧
        call.header.get? "@type" = some MessageKind.artifactRequest.tag ∧
        call.header.get? "ids:requestedArtifact" = some t.artifact ∧
        call.header.get? "ids:transferContract" = some record.remoteId) ∧
      (∀ results, outcome (e.downloadArtifacts recipient names id) r = .ok results →
        turns.map Turn.artifact = names ∧ List.Forall₂ (Turn.Reported e.policy) turns results) ∧
      ∀ err, outcome (e.downloadArtifacts recipient names id) r = .error err →
        ∃ earlier last, turns = earlier ++ [last] ∧
          (∀ t ∈ earlier, ∃ result, t.Reported e.policy result) ∧ last.Ended e.policy err := by
  intro b
  have hending := ending_downloadArtifacts hrecord recipient names
  have hhappens : ∀ earlier t later, b.turns e.policy names r = earlier ++ t :: later →
      b.Happens t.artifact (b.passedAll (earlier.map Turn.artifact) r) t.fate :=
    fun _ _ _ hturns => Batch.happens_of_turns hrecipient hnames hturns
  refine ⟨b.turns e.policy names r, traffic_downloadArtifacts hrecord recipient names,
    b.prefix_turns _ _ _, hhappens, ?_, ?_, ?_⟩
  · intro t ht
    obtain ⟨earlier, later, hturns⟩ := List.append_of_mem ht
    refine ⟨_, (hhappens earlier t later hturns).call?_eq, rfl, b.get?_call_type _ _, ?_, ?_⟩
    · rw [b.get?_call_requestedArtifact, Service.filled_some]
      exact if_neg (Batch.named_of_turns hnames ht)
    · rw [b.get?_call_transferContract, Service.filled_some]
      exact if_neg hremote
  · intro results hresults
    rw [hresults] at hending
    cases hending with
    | complete artifacts verdicts =>
      exact ⟨artifacts, verdicts.imp fun _ _ => Turn.reported_of_verdict⟩
  · intro err herr
    rw [herr] at hending
    cases hending with
    | cut earlier last turns_eq artifacts verdicts verdict =>
      refine ⟨earlier, last, turns_eq, fun t ht => ?_, ?_⟩
      · obtain ⟨result, hresult⟩ := verdicts t ht
        exact ⟨result, Turn.reported_of_verdict hresult⟩
      · exact Turn.ended_of_verdict (hhappens earlier last [] turns_eq) verdict

/-- In a list with one artifact twice, the one that the disk has no room for is reported, and the
others are stored. -/
theorem downloadArtifacts_withServingPeer :
    ∃ turns results,
      outcome ((withServingPeer (.plain "urn:a") .carryOn).downloadArtifacts "https://peer"
        ["urn:x", "urn:huge", "urn:x"] "agr") .entitled = .ok results ∧
      results.map (·.failure.isSome) = [false, true, false] ∧
      turns.map Turn.artifact = ["urn:x", "urn:huge", "urn:x"] ∧
      List.Forall₂ (Turn.Reported .carryOn) turns results := by
  have hrecord : outcome (findAgreement (withServingPeer (.plain "urn:a") .carryOn).agreements "agr")
      .entitled = .ok ⟨"agr", "urn:a", none⟩ := ok_of_toOption (by decide +kernel)
  obtain ⟨results, hresults, hfailures⟩ : ∃ results,
      outcome ((withServingPeer (.plain "urn:a") .carryOn).downloadArtifacts "https://peer"
        ["urn:x", "urn:huge", "urn:x"] "agr") .entitled = .ok results ∧
      results.map (·.failure.isSome) = [false, true, false] :=
    ⟨[⟨"urn:x", none⟩, ⟨"urn:huge", some (Fate.unsaved "urn:huge" diskFull)⟩, ⟨"urn:x", none⟩],
      ok_of_toOption (by decide +kernel), by decide⟩
  obtain ⟨turns, -, -, -, -, hreturned, -⟩ :=
    downloadArtifacts_course (withServingPeer (.plain "urn:a") .carryOn)
      (show "https://peer" ≠ "" by decide)
      (show ∀ name ∈ ["urn:x", "urn:huge", "urn:x"], name ≠ "" by decide) hrecord (by decide)
  exact ⟨turns, results, hresults, hfailures, hreturned results hresults⟩

end Engine

end Dataspace
