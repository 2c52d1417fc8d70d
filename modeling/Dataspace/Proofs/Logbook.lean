import Dataspace.Proofs.Accounts
import Dataspace.Proofs.ArtifactDownload

/-!
# The log of messages and of failures to store

Operators count exchanges and see failures in the log. What they rely on is that the records about
messages stand in blocks, one for each call of the transport and around it, and that a failure to
store is warned of once, before anything else happens:

* **`Mark`** — what someone sees of a chronicle who looks at messages, at replies for the store, at
  the records about messages and at the warnings of downloads.
* **`Answer.marks`** — the block that belongs to one answer of the transport or of the store.
* **`Reaches.exists_logs`** — wherever an engine gets to, it leaves these blocks and no other marks.
* **`session_leaves_blocks`** — the blocks of a session, and what its operations make of the
  failures that they have warned of.
-/

namespace Dataspace

open Exchange

variable {σ : Type}

/-! ## Marks -/

/-- What is seen of a chronicle. -/
inductive Mark where
  | sent (call : Call)
  | saved (save : Save)
  /-- A record about a message. -/
  | spoke (record : LogRecord)
  /-- A warning of a download, whatever it says. -/
  | warned (component : Component)

/-- How loud a mark is, if it stands for a record. -/
def Mark.level? : Mark → Option Level
  | .sent _ | .saved _ => none
  | .spoke record => some record.level
  | .warned _ => some .warning

def LogRecord.mark? (record : LogRecord) : Option Mark :=
  match record.component with
  | .messaging => some (.spoke record)
  | .artifacts | .metadata =>
    if record.level = .warning then some (.warned record.component) else none
  | .assembly | .identity | .engine | .negotiation | .examination | .memory | .transport => none

def Event.mark? : Event → Option Mark
  | .sent call => some (.sent call)
  | .saved save => some (.saved save)
  | .noted record => record.mark?
  | .asked _ | .drew _ => none

def Run.marks (r : Run σ) : List Mark :=
  r.events.filterMap Event.mark?

/-! ### The block of an answer -/

/-- A record about a message: its kind and its recipient are those of the message itself. -/
def Call.noted (c : Call) (level : Level) (verb rest : String) : Mark :=
  .spoke ⟨level, .messaging, "Message " ++ verb ++ " | " ++ shownOrNone (c.header.get? "@type") ++
    " | recipient=" ++ c.recipient ++ rest⟩

/-- What is said of a reply of another kind than the message asks for. -/
def Call.remarkOn (c : Call) (reply : Response) : Mark :=
  if reply.kind = some MessageKind.rejection.tag then
    c.noted .warning "REJECTED" (" | reason=" ++ shownOrNone reply.rejectionReason)
  else
    c.noted .warning "UNEXPECTED"
      (" | expected=" ++ shownOrNone c.expected ++ " | got=" ++ shownOrNone reply.kind)

/-- The part that downloads replies of this sort. -/
def Save.downloader : Save → Component
  | metadata _ _ _ _ | appResource _ _ => .metadata
  | data _ _ | appData _ _ => .artifacts

namespace Answer

/-- The marks around a call of the transport, and around a call of the store: there is a warning
for every failure that is caught. -/
def marks : Answer → List Mark
  | sent call (.error cause) =>
    [call.noted .info "SEND" "", .sent call,
      call.noted .error "FAIL" (" | " ++ elapsed ++ " | " ++ cause.message)]
  | sent call (.ok reply) =>
    [call.noted .info "SEND" "", .sent call,
      call.noted .info "OK  " (" | " ++ elapsed ++ " | reply=" ++ shownOrNone reply.kind)] ++
    if reply.kind = call.expected then [] else [call.remarkOn reply]
  | saved save result =>
    .saved save :: (saved save result).caught?.toList.map fun _ => .warned save.downloader

end Answer

/-! ## What leaves marks -/

/-- The parts whose records are not looked at. -/
theorem Event.filterMap_mark?_ofNotes {component : Component} {notes : List Note}
    (h : ∀ n ∈ notes, (n.by component).mark? = none) :
    (ofNotes component notes).filterMap mark? = [] := by
  unfold ofNotes
  rw [List.filterMap_map]
  exact List.filterMap_eq_nil_iff.2 h

theorem LogRecord.mark?_of_isRemark {record : LogRecord} (h : record.isRemark = true) :
    record.mark? = none := by
  obtain ⟨level, component, text⟩ := record
  cases component with
  | artifacts | metadata =>
    have hlevel : level = .info := of_decide_eq_true h
    subst hlevel
    rfl
  | engine | negotiation | examination => rfl
  | assembly | identity | messaging | memory | transport => cases h

theorem Run.marks_extended (r : Run σ) (events : List Event) :
    (r.extended events).marks = r.marks ++ events.filterMap Event.mark? :=
  List.filterMap_append

section Steps

variable {env : Surroundings σ} {s : Service} {d : Descriptor}

/-- What a service says of a message is said of the message itself. -/
theorem Service.Usual.noted_callAt (hs : s.Usual) (hd : d.properties = .empty)
    (env : Surroundings σ) (payload : Payload) (asked drawn : Nat) (level : Level)
    (verb rest : String) :
    (s.callAt env d payload asked drawn).noted level verb rest =
      .spoke ⟨level, .messaging, s.logLine verb d.recipient rest⟩ := by
  unfold Call.noted
  rw [hs.type_callAt hd]
  rfl

/-- **One exchange leaves one block.** -/
theorem Service.Usual.marks_exchanged (hs : s.Usual) (hd : d.properties = .empty)
    (payload : Payload) (r : Run σ) :
    (s.exchanged env d payload r).marks = r.marks ++
      (Answer.sent (s.callAt env d payload r.asked r.drawn)
        (s.answerAt env d payload r).result).marks := by
  have hidentity : ∀ notes, (Event.ofNotes .identity notes).filterMap Event.mark? = [] :=
    fun _ => Event.filterMap_mark?_ofNotes fun _ _ => rfl
  have htransport : ∀ notes, (Event.ofNotes .transport notes).filterMap Event.mark? = [] :=
    fun _ => Event.filterMap_mark?_ofNotes fun _ _ => rfl
  have hnoted := hs.noted_callAt hd env payload r.asked r.drawn
  have hexpected := hs.expected_callAt hd env payload r.asked r.drawn
  unfold Run.marks
  rw [exchanged_events, List.filterMap_append]
  congr 1
  unfold exchangeEvents
  generalize s.callAt env d payload r.asked r.drawn = call at hnoted hexpected ⊢
  simp only [List.filterMap_append, List.filterMap_cons, Event.mark?, hidentity, htransport,
    List.nil_append]
  cases (s.answerAt env d payload r).result with
  | error cause =>
    simp only [verdict, Answer.marks, hnoted]
    rfl
  | ok reply =>
    simp only [verdict, Answer.marks, hnoted, hexpected, Call.remarkOn]
    cases hkind : s.accepts reply with
    | true =>
      rw [if_pos (Service.accepts_iff.1 hkind)]
      rfl
    | false =>
      simp only [Bool.false_eq_true, if_false]
      rw [if_neg (mt Service.accepts_iff.2 (Bool.eq_false_iff.1 hkind))]
      unfold Service.unexpectedLine
      by_cases hrejection : reply.kind = some MessageKind.rejection.tag
      · rw [if_pos hrejection, if_pos hrejection]
        rfl
      · rw [if_neg hrejection, if_neg hrejection]
        rfl

end Steps

theorem Download.Job.Usual.component {j : Job} (h : j.Usual) (reply : Response) :
    j.errand.component = (j.errand.save reply).downloader := by
  cases h with
  | metadata | appResource | artifact | appArtifact => rfl

/-- **One save leaves one mark**, and a warning if the store has failed in a way of its own. -/
theorem Download.Job.Usual.marks_keep {j : Job} (h : j.Usual) (p : Persistence σ)
    (reply : Response) (r : Run σ) :
    (after (keep p j.errand reply) r).marks = r.marks ++
      (Answer.saved (j.errand.save reply) (outcome (save p (j.errand.save reply)) r)).marks := by
  have hmemory : ∀ notes, (Event.ofNotes .memory notes).filterMap Event.mark? = [] :=
    fun _ => Event.filterMap_mark?_ofNotes fun _ _ => rfl
  have hsave : (after (save p (j.errand.save reply)) r).marks =
      r.marks ++ [.saved (j.errand.save reply)] := by
    rw [after, perform_save]
    unfold Run.marks
    rw [List.filterMap_append, List.filterMap_cons, hmemory]
    rfl
  have hcomponent := h.component reply
  rw [after, perform_keep]
  cases outcome (save p (j.errand.save reply)) r with
  | ok _ => exact hsave
  | error cause =>
    cases hfailure : cause.isStoreFailure with
    | false =>
      simp only [hfailure, Bool.false_eq_true, if_false, Answer.marks, Answer.caught?]
      exact hsave
    | true =>
      simp only [hfailure, if_true, Answer.marks, Answer.caught?]
      rw [Run.marks_extended, hsave, List.append_assoc, hcomponent]
      cases j.errand.save reply with
      | metadata | appResource | data | appData => rfl

/-! ## Blocks -/

namespace Engine

variable {e : Engine σ} {r r' r'' : Run σ} {answers more : List Answer}

/-- Between two points of a run these answers were heard, and each of them has left its block. -/
structure Logs (e : Engine σ) (r r' : Run σ) (answers : List Answer) : Prop where
  answered : Answered e.transport e.persistence r r' answers
  marks : r'.marks = r.marks ++ answers.flatMap Answer.marks

theorem Logs.trans (h : e.Logs r r' answers) (h' : e.Logs r' r'' more) :
    e.Logs r r'' (answers ++ more) where
  answered := h.answered.trans h'.answered
  marks := by rw [h'.marks, h.marks, List.flatMap_append, List.append_assoc]

/-- An answer that leaves its block. -/
theorem Logs.of_block {a : Answer} (h : Answered e.transport e.persistence r r' [a])
    (hmarks : r'.marks = r.marks ++ a.marks) : e.Logs r r' [a] where
  answered := h
  marks := by rw [hmarks, List.flatMap_singleton]

/-- **Wherever an engine gets to, it leaves one block for each answer**, and no other marks. -/
theorem Reaches.exists_logs (h : e.Reaches r r') : ∃ answers, e.Logs r r' answers := by
  induction h with
  | refl => exact ⟨[], .refl r, (List.append_nil _).symm⟩
  | @remark r' _ component notes hremark ih =>
    obtain ⟨answers, ih⟩ := ih
    have hsilent := Event.filterMap_mark?_ofNotes fun n hn =>
      LogRecord.mark?_of_isRemark (hremark n hn)
    refine ⟨answers, ih.answered.extended _ _, ?_⟩
    rw [Run.marks_extended, hsilent, List.append_nil, ih.marks]
  | exchange _ usual plain _ payload ih =>
    obtain ⟨answers, ih⟩ := ih
    exact ⟨_, ih.trans (.of_block (answered_exchanged e.toSurroundings e.persistence _ _ payload _)
      (usual.marks_exchanged plain payload _))⟩
  | keep _ usual reply ih =>
    obtain ⟨answers, ih⟩ := ih
    exact ⟨_, ih.trans (.of_block (answered_keep e.transport e.persistence _ reply _)
      (usual.marks_keep e.persistence reply _))⟩
  | @enter r' _ agreement ih =>
    obtain ⟨answers, ih⟩ := ih
    have hmemory : ∀ notes, (Event.ofNotes .memory notes).filterMap Event.mark? = [] :=
      fun _ => Event.filterMap_mark?_ofNotes fun _ _ => rfl
    have hstored := answered_storeAgreement e.transport e.persistence e.uuidAt agreement r'
    refine ⟨_, ih.trans ⟨hstored, ?_⟩⟩
    rw [after, perform_storeAgreement]
    unfold Run.marks
    rw [List.filterMap_append, List.filterMap_cons, hmemory]
    rfl

theorem logs_operate (e : Engine σ) (op : Operation) (r : Run σ) :
    e.Logs r (after (e.operate op) r) (e.answers op r) := by
  obtain ⟨answers, hlogs⟩ := (reaches_operate e op r).exists_logs
  have heq : e.answers op r = answers := hlogs.answered.eq
  rw [heq]
  exact hlogs

/-- What is heard in a session. -/
def sessionAnswers (e : Engine σ) (ops : List Operation) (r : Run σ) : List Answer :=
  (heardAll e.transport e.persistence (r.world, r.shelves)
    ((e.session ops r).events.drop r.events.length)).1

theorem logs_session (e : Engine σ) (ops : List Operation) (r : Run σ) :
    e.Logs r (e.session ops r) (e.sessionAnswers ops r) := by
  obtain ⟨answers, hlogs⟩ := (reaches_session e ops r).exists_logs
  have heq : e.sessionAnswers ops r = answers := hlogs.answered.eq
  rw [heq]
  exact hlogs

/-- **Exchanges are logged in blocks, and failures to store are warned of.** Over any session and
whatever the transport and the store do:

* there is one answer for each message that is handed to the transport, and the records about
  messages are those of the blocks of these answers, one after another;
* an operation accounts for the failures to store that it has warned of;
* a refused descriptor leaves everything as it is. -/
theorem session_leaves_blocks (e : Engine σ) :
    (∀ ops r, (e.session ops r).calls =
        r.calls ++ (e.sessionAnswers ops r).filterMap Answer.call? ∧
      (e.session ops r).marks = r.marks ++ (e.sessionAnswers ops r).flatMap Answer.marks) ∧
    (∀ op r, (after (e.operate op) r).marks = r.marks ++ (e.answers op r).flatMap Answer.marks ∧
      Accounts (op.records e.policy) (e.answers op r) (outcome (e.operate op) r)) ∧
    ∀ (s : Service) (d : Option Descriptor) (flaw : DescriptorFlaw) (payload : Payload)
      (r : Run σ), s.profile.accept d = .error flaw →
      perform (s.send e.toSurroundings d payload) r = (.error (.descriptor flaw), r) ∧
      perform (s.sendAndValidate e.toSurroundings d payload) r =
        (.error (.descriptor flaw), r) := by
  refine ⟨fun ops r => ?_, fun op r => ⟨(logs_operate e op r).marks, accounts_operate e op r⟩, ?_⟩
  · have hlogs := logs_session e ops r
    exact ⟨hlogs.answered.calls_eq, hlogs.marks⟩
  · intro s d flaw payload r hrefused
    exact ⟨Service.perform_send_refused _ hrefused payload r,
      Service.perform_sendAndValidate_refused _ hrefused payload r⟩

/-- The disk has no room for one artifact, the second message is not sent, and the peer has no
descriptions. -/
theorem session_leaves_blocks_of_fullDisk :
    let e := withServingPeer (.plain "urn:a") .carryOn
    let ops : List Operation := [.downloadArtifacts "https://peer" ["urn:huge", "urn:x"] "agr",
      .downloadAppResource "" "urn:app", .downloadAppResource "https://peer" "urn:app"]
    (e.session ops .entitled).marks.filterMap Mark.level? =
      [.info, .info, .warning, .info, .info, .info, .info, .warning] := by
  intro e ops
  rw [((session_leaves_blocks e).1 ops .entitled).2]
  decide +kernel

end Engine

end Dataspace
