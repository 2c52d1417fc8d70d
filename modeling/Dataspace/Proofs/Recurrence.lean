import Dataspace.Proofs.ArtifactDownload
import Dataspace.Proofs.Redaction
import Dataspace.Proofs.Session

/-!
# Operations do not depend on what was done before

A connector that keeps everything in memory, always speaks as the same party and talks to steady
peers has no way to be influenced by its past: an operation that is begun anywhere in a run does
what it does at the beginning.

* **`Call.unstamped`** — a message without what is new in every message: its name and its time.
* **`Transport.Steady`** — the same answer to messages that are the same but for these two.
* **`Exchange.Forgetful`** — from any two points of a run the action ends with the same and sends
  the same.
* **`operation_after_session`** — an operation after any session, and at the beginning.

Only an agreement is looked up in what was kept before; it has to be found as at the beginning.
-/

namespace Dataspace

open Exchange

variable {σ : Type}

/-! ## Messages without name and time -/

theorem Fields.get?_blank_of_ne (f : Fields String) {name n : String} (h : n ≠ name) :
    (f.blank name).get? n = f.get? n := by
  have hentries : ∀ entries : List (String × String),
      Entries.get? (entries.map (Entries.blanked name)) n = Entries.get? entries n := by
    intro entries
    induction entries with
    | nil => rfl
    | cons e rest ih =>
      obtain ⟨found, value⟩ := e
      rw [List.map_cons, Entries.get?, Entries.get?, ih]
      by_cases hfound : found = n
      · subst hfound
        simp only [Entries.blanked, if_pos, if_neg h]
      · rw [if_neg hfound, Entries.blanked]
        exact if_neg hfound
  exact hentries f.entries

def Header.unstamped (h : Header) : Header :=
  (h.blank "@id").blank "ids:issued"

def Call.unstamped (c : Call) : Call :=
  { c with header := c.header.unstamped }

/-- Another name and another time make another message only in these two. -/
theorem Message.unstamped_header (m : Message) (id : String) (issued : Timestamp) :
    Header.unstamped { m with id := id, issued := issued }.header = Header.unstamped m.header := by
  have hcommon : ({ m with id := id, issued := issued }.commonFields.map
        (Entries.blanked "@id")).map (Entries.blanked "ids:issued") =
      (m.commonFields.map (Entries.blanked "@id")).map (Entries.blanked "ids:issued") := by
    simp [commonFields, Entries.blanked]
  unfold Header.unstamped header Fields.ofPairs
  simp only [Fields.blank_putAll, Fields.blank_putSome, hcommon]

/-- A peer whose answer depends on no more than the recipient, the payload and the header without
name and time. -/
def Transport.Steady (t : Transport σ) : Prop :=
  ∀ call call' world world', call.unstamped = call'.unstamped →
    (t.send call world).result = (t.send call' world').result

/-- The peer that serves looks at no more than the kind of a message. -/
theorem Transport.steady_serving (offer : Contract) : (Transport.serving offer).Steady := by
  intro call call' world world' h
  have hkind : ∀ call : Call,
      (Header.unstamped call.header).get? "@type" = call.header.get? "@type" := by
    intro call
    unfold Header.unstamped
    rw [Fields.get?_blank_of_ne _ (by decide), Fields.get?_blank_of_ne _ (by decide)]
  have hsame : call.header.get? "@type" = call'.header.get? "@type" := by
    rw [← hkind, ← hkind]
    exact congrArg (fun c => c.header.get? "@type") h
  simp only [serving, hsame]

/-! ## Actions that forget -/

namespace Exchange

/-- Begun at either of two points of a run, an action comes to the same. -/
structure Same {α : Type} (x : Exchange σ α) (r r' : Run σ) : Prop where
  outcome_eq : outcome x r = outcome x r'
  calls_eq : ∃ sent sent', (after x r).calls = r.calls ++ sent ∧
    (after x r').calls = r'.calls ++ sent' ∧ sent.map Call.unstamped = sent'.map Call.unstamped

/-- It comes to the same wherever it is begun. -/
def Forgetful {α : Type} (x : Exchange σ α) : Prop :=
  ∀ r r', Same x r r'

variable {α β : Type} {r r' : Run σ}

/-- An action that sends nothing and ends with the same. -/
theorem Same.of_silent {x : Exchange σ α} {result : Except Error α} {r₁ r₁' : Run σ}
    (h : perform x r = (result, r₁)) (h' : perform x r' = (result, r₁'))
    (hcalls : r₁.calls = r.calls) (hcalls' : r₁'.calls = r'.calls) : Same x r r' where
  outcome_eq := by rw [outcome, outcome, h, h']
  calls_eq := by
    rw [after, after, h, h']
    exact ⟨[], [], by rw [List.append_nil, hcalls], by rw [List.append_nil, hcalls'], rfl⟩

theorem Same.bind {x : Exchange σ α} {f : α → Exchange σ β} (h : Same x r r')
    (hf : ∀ a, Forgetful (f a)) : Same (x >>= f) r r' := by
  obtain ⟨houtcome, sent, sent', hsent, hsent', hsame⟩ := h
  unfold outcome after at *
  have hbind := perform_bind x f r
  have hbind' := perform_bind x f r'
  cases hfirst : perform x r with
  | mk result r₁ =>
    cases hfirst' : perform x r' with
    | mk result' r₁' =>
      rw [hfirst] at houtcome hsent hbind
      rw [hfirst'] at houtcome hsent' hbind'
      cases houtcome
      cases result with
      | error err =>
        refine ⟨?_, sent, sent', ?_, ?_, hsame⟩
        · rw [outcome, outcome, hbind, hbind']
        · rw [after, hbind]
          exact hsent
        · rw [after, hbind']
          exact hsent'
      | ok a =>
        obtain ⟨houtcome, more, more', hmore, hmore', hsame'⟩ := hf a r₁ r₁'
        refine ⟨?_, sent ++ more, sent' ++ more', ?_, ?_, ?_⟩
        · rw [outcome, outcome, hbind, hbind']
          exact houtcome
        · rw [after, hbind, ← List.append_assoc, ← hsent]
          exact hmore
        · rw [after, hbind', ← List.append_assoc, ← hsent']
          exact hmore'
        · rw [List.map_append, List.map_append, hsame, hsame']

theorem Forgetful.pure (a : α) : Forgetful (Pure.pure a : Exchange σ α) :=
  fun _ _ => Same.of_silent (perform_pure a _) (perform_pure a _) rfl rfl

theorem Forgetful.throw (e : Error) : Forgetful (MonadExcept.throw e : Exchange σ α) :=
  fun _ _ => Same.of_silent (perform_throw e _) (perform_throw e _) rfl rfl

theorem Forgetful.say (component : Component) (notes : List Note) :
    Forgetful (σ := σ) (say component notes) :=
  fun _ _ => Same.of_silent (perform_say _ _ _) (perform_say _ _ _) (by simp) (by simp)

theorem Forgetful.congruence : Congruence (σ := σ) fun x _ => Forgetful x where
  pure := Forgetful.pure
  throw := Forgetful.throw
  bind := fun hx hf r r' => (hx r r').bind hf
  attempt := fun h r r' => ⟨congrArg Except.ok (h r r').outcome_eq, (h r r').calls_eq⟩
  say := fun component notes _ => Forgetful.say component notes

/-! ### What an engine does in memory -/

/-- The shelves take a reply or not, whatever is on them. -/
theorem Forgetful.save (s : Save) : Forgetful (σ := σ) (save .unhindered s) := by
  intro r r'
  have hresult : ((Persistence.unhindered (σ := σ)).take s r.world r.shelves).result =
      (Persistence.unhindered.take s r'.world r'.shelves).result := by
    cases s with
    | metadata | appResource => rfl
    | data response subject | appData response subject =>
      simp only [Persistence.unhindered, Persistence.take, Shelves.save]
      cases Shelves.payloadFor response subject with
      | error err => rfl
      | ok octets => rfl
  have hperform := perform_save .unhindered s r
  rw [hresult] at hperform
  refine Same.of_silent hperform (perform_save .unhindered s r') ?_ ?_
  all_goals simp [Run.calls, List.filterMap_cons, Event.call?]

theorem Forgetful.keep (errand : Download.Errand) (reply : Response) :
    Forgetful (σ := σ) (Download.keep .unhindered errand reply) :=
  Forgetful.congruence.keep (fun component _ => Forgetful.say component _) Forgetful.save errand
    reply

/-- An agreement is entered under another identifier each time, and nobody is told which. -/
theorem Forgetful.storeAgreement (uuidAt : Nat → Uuid) (agreement : Contract) :
    Forgetful (σ := σ) (do
      let _ ← storeAgreement uuidAt agreement
      return agreement) := by
  intro r r'
  refine Same.of_silent (perform_bind_ok (perform_storeAgreement uuidAt agreement r))
    (perform_bind_ok (perform_storeAgreement uuidAt agreement r')) ?_ ?_
  all_goals simp [Run.calls, List.filterMap_cons, Event.call?]

/-- What is looked up in the book is the same if it is found to be the same. -/
theorem Same.findAgreement {id : String} (h : r.book.find id = r'.book.find id) :
    Same (findAgreement .inMemory id) r r' := by
  have hperform := perform_findAgreement id r
  rw [h] at hperform
  exact Same.of_silent hperform (perform_findAgreement id r') rfl rfl

end Exchange

/-! ## Messages -/

theorem Service.unstamped_callAt {env : Surroundings σ}
    (hidentity : ∀ n, env.identity.whoAt n = env.identity.whoAt 0) (s : Service) (d : Descriptor)
    (payload : Payload) (asked drawn asked' drawn' : Nat) :
    (s.callAt env d payload asked drawn).unstamped =
      (s.callAt env d payload asked' drawn').unstamped := by
  have hheader : ∀ who u now u' now', Header.unstamped (s.message d who u now).header =
      Header.unstamped (s.message d who u' now').header :=
    fun who _ _ u' now' => Message.unstamped_header (s.message d who u' now') _ _
  unfold callAt
  rw [hidentity asked, hidentity asked']
  exact congrArg (Call.mk d.recipient · payload) (hheader _ _ _ _ _)

/-- A steady peer answers alike, and its answer decides. -/
theorem Exchange.Forgetful.sendAndValidate {env : Surroundings σ}
    (hidentity : ∀ n, env.identity.whoAt n = env.identity.whoAt 0) (hpeer : env.transport.Steady)
    (s : Service) (d : Descriptor) (payload : Payload) :
    Forgetful (s.sendAndValidate env (some d) payload) := by
  intro r r'
  cases haccept : s.profile.accept (some d) with
  | error flaw =>
    exact Same.of_silent (Service.perform_sendAndValidate_refused env haccept payload r)
      (Service.perform_sendAndValidate_refused env haccept payload r') rfl rfl
  | ok d' =>
    cases Profile.eq_of_accept haccept
    have hcall := Service.unstamped_callAt hidentity s d payload r.asked r.drawn r'.asked r'.drawn
    have hanswer : (s.answerAt env d payload r).result = (s.answerAt env d payload r').result :=
      hpeer _ _ _ _ hcall
    refine ⟨?_, [s.callAt env d payload r.asked r.drawn],
      [s.callAt env d payload r'.asked r'.drawn], ?_, ?_, ?_⟩
    · rw [outcome, outcome, Service.perform_sendAndValidate env haccept,
        Service.perform_sendAndValidate env haccept, hanswer]
    · rw [after, Service.perform_sendAndValidate env haccept, Service.calls_exchanged]
    · rw [after, Service.perform_sendAndValidate env haccept, Service.calls_exchanged]
    · rw [List.map_singleton, List.map_singleton, hcall]

/-! ## Operations -/

/-- The agreement that an operation refers to. -/
def Operation.agreementId? : Operation → Option String
  | .downloadArtifacts _ _ agreementId => some agreementId
  | _ => none

namespace Engine

/-- The messages of an operation that is begun at this point of a run. -/
def messages (e : Engine σ) (op : Operation) (r : Run σ) : List Call :=
  (after (e.operate op) r).calls.drop r.calls.length

/-- A connector that keeps everything in memory, always speaks as the same party and talks to a
steady peer. -/
structure Steadfast (e : Engine σ) : Prop where
  persistence : e.persistence = .unhindered
  agreements : e.agreements = .inMemory
  identity : ∀ n, e.identity.whoAt n = e.identity.whoAt 0
  peer : e.transport.Steady

variable {e : Engine σ}

theorem Steadfast.forgetful_negotiate (h : e.Steadfast) (recipient : String) (request : Contract) :
    Forgetful (e.negotiate recipient request) :=
  Forgetful.congruence.negotiate e.toSurroundings
    (fun s d payload _ _ => Forgetful.sendAndValidate h.identity h.peer s d payload) rfl
    (Forgetful.storeAgreement e.uuidAt) recipient request

theorem Steadfast.forgetful_jobs (h : e.Steadfast) (op : Operation) (transferContract : String) :
    Forgetful (Download.Job.carryOutAll e.toSurroundings e.persistence (op.records e.policy)
      (e.jobs transferContract op)) := by
  rw [h.persistence]
  exact Forgetful.congruence.carryOutAll e.toSurroundings
    (fun s d payload _ _ => Forgetful.sendAndValidate h.identity h.peer s d payload)
    (fun j reply _ => Forgetful.keep j.errand reply) _ fun _ => usual_of_mem_jobs

theorem Steadfast.same_prepare (h : e.Steadfast) {op : Operation} {r r' : Run σ}
    (hbook : ∀ id, op.agreementId? = some id → r.book.find id = r'.book.find id) :
    Same (e.prepare op) r r' := by
  cases op with
  | negotiate | downloadAppResource | downloadAppArtifact => exact Forgetful.pure _ r r'
  | downloadMetadata recipient resources artifacts autoDownload =>
    exact (Forgetful.say _ _ r r').bind fun _ => Forgetful.pure _
  | downloadArtifacts recipient artifacts agreementId =>
    have hfind : Same (findAgreement e.agreements agreementId) r r' := by
      rw [h.agreements]
      exact Same.findAgreement (hbook agreementId rfl)
    exact hfind.bind fun _ _ _ => (Forgetful.say _ _ _ _).bind fun _ => Forgetful.pure _

/-- **An operation comes to the same** at any two points of a run at which its agreement is found
to be the same. -/
theorem Steadfast.same_operate (h : e.Steadfast) {op : Operation} {r r' : Run σ}
    (hbook : ∀ id, op.agreementId? = some id → r.book.find id = r'.book.find id) :
    Same (e.operate op) r r' := by
  by_cases hop : op.IsDownload
  · rw [operate_download e hop]
    refine (h.same_prepare hbook).bind fun transferContract r r' => ?_
    exact (h.forgetful_jobs op transferContract r r').bind fun _ => Forgetful.pure _
  · cases op with
    | negotiate recipient request =>
      exact (h.forgetful_negotiate recipient request r r').bind fun _ => Forgetful.pure _
    | downloadMetadata | downloadAppResource | downloadArtifacts | downloadAppArtifact =>
      exact absurd trivial hop

/-- **An operation does not depend on the session before it.** It returns the same value or raises
the same error as at the beginning, and sends the same messages but for their names and times. -/
theorem operation_after_session (e : Engine σ) (h : e.Steadfast) (world : σ) (book : AgreementBook)
    (before : List Operation) (op : Operation)
    (hbook : ∀ id, op.agreementId? = some id →
      (e.session before (.start world book)).book.find id = book.find id) :
    let later := e.session before (.start world book)
    outcome (e.operate op) later = outcome (e.operate op) (.start world book) ∧
      (e.messages op later).map Call.unstamped =
        (e.messages op (.start world book)).map Call.unstamped := by
  intro later
  have hoperate : Same (e.operate op) later (.start world book) := h.same_operate hbook
  obtain ⟨houtcome, sent, sent', hsent, hsent', hsame⟩ := hoperate
  refine ⟨houtcome, ?_⟩
  unfold messages
  rw [hsent, hsent', List.drop_left, List.drop_left]
  exact hsame

/-- The agreement under which artifacts are downloaded is there from the beginning, and negotiating
another one does not disturb this. -/
theorem operation_after_session_of_serving :
    let e : Engine Unit :=
      { withServingPeer (.plain "urn:a") .carryOn with persistence := .unhindered }
    let op := Operation.downloadArtifacts "https://peer" ["urn:x", "urn:y"] "agr"
    let later := e.session [.negotiate "https://peer" (.plain "urn:r"), op] .entitled
    outcome (e.operate op) later = outcome (e.operate op) .entitled ∧
      (e.messages op later).map Call.unstamped = (e.messages op .entitled).map Call.unstamped ∧
      e.messages op later ≠ e.messages op .entitled := by
  intro e op later
  have hsteadfast : e.Steadfast :=
    ⟨rfl, rfl, fun _ => rfl, Transport.steady_serving (.plain "urn:a")⟩
  have hbook : ∀ id, op.agreementId? = some id →
      later.book.find id = Run.entitled.book.find id := by
    intro id hid
    cases hid
    decide +kernel
  obtain ⟨houtcome, hmessages⟩ := operation_after_session e hsteadfast () _ _ op hbook
  have hnames : (e.messages op later).map (·.header.get? "@id") ≠
      (e.messages op .entitled).map (·.header.get? "@id") := by decide +kernel
  refine ⟨houtcome, hmessages, fun heq => ?_⟩
  rw [heq] at hnames
  exact hnames rfl

end Engine

end Dataspace
