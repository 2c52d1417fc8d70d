import Dataspace.Proofs.ArtifactDownload
import Dataspace.Proofs.Session

/-!
# What a negotiated agreement entitles to

A negotiation enters its agreement into the book, a later download finds it there, and the identifier
that the provider gave it goes out with every request for an artifact — unless that identifier is the
empty text. Nothing keeps a provider from sending such an agreement, and a negotiation without a
confirmation returns and stores it; but the header of a message has no place for an empty text.

* **`find_negotiated`** — the agreement is in the book for the rest of the session.
* **`transferContract_of_negotiated`** — what the requests of a later download say of it.
-/

namespace Dataspace

open Exchange Download

variable {σ : Type}

namespace Download

/-! ## The requests of a download -/

theorem Turn.filterMap_traffic (t : Turn) :
    t.traffic.filterMap Event.call? = t.fate.call?.toList := by
  obtain ⟨name, fate⟩ := t
  cases fate <;> rfl

theorem Batch.eq_call_of_mem {b : Batch σ} {policy : FailurePolicy} {names : List String}
    {r : Run σ} {call : Call}
    (h : call ∈ (b.turns policy names r).filterMap (·.fate.call?)) :
    ∃ name r', call = b.call name r' := by
  obtain ⟨t, ht, hcall⟩ := List.mem_filterMap.1 h
  obtain ⟨earlier, later, hturns⟩ := List.append_of_mem ht
  have hturn := b.turns_eq_turn policy names hturns
  rw [hturn] at hcall
  exact ⟨_, _, eq_call_of_fate hcall⟩

/-- An artifact with a name at the head of a list is asked for. -/
theorem Batch.call_mem_of_cons {b : Batch σ} {name : String} (hrecipient : b.recipient ≠ "")
    (hname : name ≠ "") (policy : FailurePolicy) (rest : List String) (r : Run σ) :
    b.call name r ∈ (b.turns policy (name :: rest) r).filterMap (·.fate.call?) := by
  have hfirst : b.turn name r ∈ b.turns policy (name :: rest) r := by
    cases h : (b.turn name r).verdict policy with
    | error err => rw [turns_cons_error h]; exact List.mem_cons_self
    | ok result => rw [turns_cons_ok h]; exact List.mem_cons_self
  exact List.mem_filterMap.2 ⟨_, hfirst, (Batch.happens_fate r hrecipient hname).call?_eq⟩

end Download

namespace Engine

variable {e : Engine σ} {id : String} {record : AgreementRecord} {r : Run σ}

/-- The messages of a download are the requests of its turns. -/
theorem calls_downloadArtifacts (h : outcome (findAgreement e.agreements id) r = .ok record)
    (recipient : String) (names : List String) :
    (after (e.downloadArtifacts recipient names id) r).calls =
      r.calls ++
        ((e.batch recipient record.remoteId).turns e.policy names r).filterMap (·.fate.call?) := by
  rw [Run.calls_eq_traffic, Run.calls_eq_traffic, traffic_downloadArtifacts h recipient names,
    List.filterMap_append, List.filterMap_flatMap]
  simp only [Turn.filterMap_traffic]
  rw [List.filterMap_eq_flatMap_toList fun t : Turn => t.fate.call?]

/-- What a negotiation entered is found in the rest of the session. -/
theorem find_negotiated (he : e.agreements = .inMemory) {provider : String}
    {request agreement : Contract} {between : List Operation}
    (hagreed : outcome (e.negotiate provider request) r = .ok agreement)
    (hfresh : e.Fresh (.negotiate provider request :: between) r) :
    let localId := e.lastLocalId (after (e.negotiate provider request) r)
    outcome (findAgreement e.agreements localId)
        (e.session (.negotiate provider request :: between) r) =
      .ok ⟨localId, agreement.id, some agreement⟩ := by
  intro localId
  have hafter : after (e.operate (.negotiate provider request)) r =
      after (e.negotiate provider request) r :=
    congrArg Prod.snd (perform_operate_negotiate rfl)
  have hextends := hfresh.2.extends_book he
  -- the entry is in the book after the negotiation, and so in every later one
  have hmem : (localId, ⟨localId, agreement.id, some agreement⟩) ∈
      (after (e.operate (.negotiate provider request)) r).book.entries := by
    rw [hafter, book_of_negotiated he hagreed]
    exact Entries.mem_of_get? r.book.get?_put_self
  rw [he, outcome, perform_findAgreement]
  exact AgreementBook.find_of_mem (hextends.subset hmem)

/-- **A negotiated agreement in the requests of a later download.** Every request for an artifact
under it has the provider's identifier of the agreement as its transfer contract if that identifier
has any text, and has no transfer contract otherwise. So all requests name the agreement exactly if
it has a name or nothing was asked for. -/
theorem transferContract_of_negotiated (e : Engine σ) (he : e.agreements = .inMemory)
    {provider : String} {request agreement : Contract} {between : List Operation} {r : Run σ}
    (hagreed : outcome (e.negotiate provider request) r = .ok agreement)
    (hfresh : e.Fresh (.negotiate provider request :: between) r) (recipient : String)
    (artifacts : List String) :
    let s := e.session (.negotiate provider request :: between) r
    let localId := e.lastLocalId (after (e.negotiate provider request) r)
    ∃ requests,
      (after (e.downloadArtifacts recipient artifacts localId) s).calls = s.calls ++ requests ∧
      (∀ call ∈ requests, call.recipient = recipient ∧
        call.header.get? "@type" = some MessageKind.artifactRequest.tag ∧
        call.header.get? "ids:transferContract" =
          if agreement.id = "" then none else some agreement.id) ∧
      ((∀ call ∈ requests, call.header.get? "ids:transferContract" = some agreement.id) ↔
        agreement.id ≠ "" ∨ requests = []) ∧
      ∀ name rest, recipient ≠ "" → name ≠ "" → artifacts = name :: rest → requests ≠ [] := by
  intro s localId
  have hfound := find_negotiated he hagreed hfresh
  have hcontract : ∀ name r', ((e.batch recipient agreement.id).call name r').header.get?
      "ids:transferContract" = if agreement.id = "" then none else some agreement.id := by
    intro name r'
    rw [Batch.get?_call_transferContract, Service.filled_some]
    rfl
  refine ⟨_, calls_downloadArtifacts hfound recipient artifacts, ?_, ⟨?_, ?_⟩, ?_⟩
  · intro call hcall
    obtain ⟨name, r', rfl⟩ := Batch.eq_call_of_mem hcall
    exact ⟨rfl, Batch.get?_call_type _ _ _, hcontract name r'⟩
  · intro hall
    by_cases hid : agreement.id = ""
    · -- a request would have to say what none of them says
      refine .inr (List.eq_nil_iff_forall_not_mem.2 fun call hcall => ?_)
      obtain ⟨name, r', rfl⟩ := Batch.eq_call_of_mem hcall
      have hnone := hcontract name r'
      rw [if_pos hid, hall _ hcall] at hnone
      cases hnone
    · exact .inl hid
  · intro hnamed call hcall
    rcases hnamed with hid | hnil
    · obtain ⟨name, r', rfl⟩ := Batch.eq_call_of_mem hcall
      rw [hcontract, if_neg hid]
    · exact absurd (hnil ▸ hcall) List.not_mem_nil
  · rintro name rest hrecipient hname rfl
    exact List.ne_nil_of_mem
      (Batch.call_mem_of_cons (b := e.batch recipient agreement.id) hrecipient hname _ _ _)

theorem fresh_negotiate (e : Engine σ) (provider : String) (request : Contract) (world : σ) :
    e.Fresh [.negotiate provider request] (.start world .empty) :=
  ⟨fun _ _ => List.not_mem_nil, trivial⟩

/-- Under an agreement with a name, a later request for an artifact has it. -/
theorem transferContract_of_negotiated_withServingPeer :
    let e := withServingPeer (.plain "urn:a") .abort
    let s := e.session [.negotiate "https://peer" (.plain "urn:r")] (.start () .empty)
    ∃ requests, requests ≠ [] ∧
      (after (e.downloadArtifacts "https://peer" ["urn:x"] "agr_000000000002") s).calls =
        s.calls ++ requests ∧
      ∀ call ∈ requests, call.header.get? "ids:transferContract" = some "urn:a" := by
  intro e s
  have hagreed : outcome (e.negotiate "https://peer" (.plain "urn:r")) (.start () .empty) =
      .ok (.plain "urn:a") := ok_of_toOption (by decide +kernel)
  have hid : e.lastLocalId (after (e.negotiate "https://peer" (.plain "urn:r")) (.start () .empty)) =
      "agr_000000000002" := by decide +kernel
  obtain ⟨requests, hcalls, -, hnamed, hasked⟩ := e.transferContract_of_negotiated rfl hagreed
    (e.fresh_negotiate _ _ _) "https://peer" ["urn:x"]
  rw [hid] at hcalls
  exact ⟨requests, hasked _ _ (by decide) (by decide) rfl, hcalls,
    hnamed.2 (.inl (show "urn:a" ≠ "" by decide))⟩

/-- A provider that sends an agreement without a name gets requests without a transfer contract. -/
theorem transferContract_missing :
    let e := withServingPeer (.plain "") .abort
    let s := e.session [.negotiate "https://peer" (.plain "urn:r")] (.start () .empty)
    outcome (e.negotiate "https://peer" (.plain "urn:r")) (.start () .empty) = .ok (.plain "") ∧
      e.Fresh [.negotiate "https://peer" (.plain "urn:r")] (.start () .empty) ∧
      ∃ call ∈ (after (e.downloadArtifacts "https://peer" ["urn:x"] (e.lastLocalId s)) s).calls,
        call.header.get? "@type" = some MessageKind.artifactRequest.tag ∧
        call.header.get? "ids:transferContract" = none :=
  ⟨ok_of_toOption (by decide +kernel), fresh_negotiate _ _ _ _, by decide +kernel⟩

end Engine

end Dataspace
