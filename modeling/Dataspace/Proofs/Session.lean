import Dataspace.Proofs.Frame
import Dataspace.Proofs.NegotiationOutcome

/-!
# The book of agreements over a whole session

A session is a list of operations of one engine, one after another, whatever each of them ends with.
Its book of agreements is a record of what was negotiated, and of nothing else:

* **`book_operate`** — one operation either returns an agreement and puts one record into the book,
  or leaves the book as it is.
* **`Fresh.extends_book`** — over a session the book only grows at its end.
* **`session_keeps_book_of_agreements`** — after a session the book has the records of the beginning
  and then one for each negotiation that returned, and it still finds every record that it ever had.

The identifiers drawn for records are given from outside. `Engine.Fresh` says of a session that none
of them is taken already when it is drawn.
-/

namespace Dataspace

open Exchange

variable {σ : Type}

/-! ## Books -/

namespace AgreementBook

/-- Every record stands under its own identifier. -/
def Keyed (b : AgreementBook) : Prop :=
  ∀ id entry, (id, entry) ∈ b.entries → id = entry.agreementId

/-- One book is an earlier state of another: the later one has the same entries and then more. -/
def Extends (later earlier : AgreementBook) : Prop :=
  earlier.entries <+: later.entries

variable {b : AgreementBook} {entry : AgreementRecord}

/-- An entry after `put` is the new one or was there before. -/
theorem Keyed.put (h : b.Keyed) (entry : AgreementRecord) :
    Keyed (b.put entry.agreementId entry) := by
  intro id found hmem
  have hget := Entries.get?_of_mem (b.put entry.agreementId entry).distinct hmem
  by_cases hid : id = entry.agreementId
  · subst hid
    have hself : Fields.get? (b.put entry.agreementId entry) entry.agreementId = some entry :=
      b.get?_put_self
    cases hget.symm.trans hself
    rfl
  · have hothers : Fields.get? (b.put entry.agreementId entry) id = b.get? id :=
      b.get?_put_of_ne hid
    exact h id found (Entries.mem_of_get? (hothers.symm.trans hget))

theorem keyed_ofRecords (records : List AgreementRecord) : (ofRecords records).Keyed := by
  have hputs : ∀ (rest : List AgreementRecord) (b : AgreementBook), b.Keyed →
      Keyed (b.putAll (rest.map fun r => (r.agreementId, r))) := by
    intro rest
    induction rest with
    | nil => exact fun _ h => h
    | cons r rest ih => exact fun b h => ih (b.put r.agreementId r) (h.put r)
  -- a book without entries has none under a wrong identifier
  refine hputs records .empty ?_
  intro id entry h
  cases h

theorem find_of_mem {id : String} (h : (id, entry) ∈ b.entries) : b.find id = .ok entry := by
  have hget : b.get? id = some entry := Entries.get?_of_mem b.distinct h
  rw [find, hget]

/-- A keyed book finds each of its records. -/
theorem Keyed.find_eq (h : b.Keyed) (hentry : entry ∈ b.records) :
    b.find entry.agreementId = .ok entry := by
  obtain ⟨⟨id, found⟩, hmem, heq⟩ := List.mem_map.1 hentry
  cases heq
  cases h id found hmem
  exact find_of_mem hmem

theorem extends_refl (b : AgreementBook) : b.Extends b :=
  List.prefix_refl _

theorem Extends.trans {last middle first : AgreementBook} (hlast : last.Extends middle)
    (hfirst : middle.Extends first) : last.Extends first :=
  List.IsPrefix.trans hfirst hlast

theorem Extends.mem_records {later earlier : AgreementBook} (h : later.Extends earlier)
    (hentry : entry ∈ earlier.records) : entry ∈ later.records :=
  (List.IsPrefix.map Prod.snd h).subset hentry

theorem records_put_of_new (h : entry.agreementId ∉ b.entries.map Prod.fst) :
    records (b.put entry.agreementId entry) = b.records ++ [entry] := by
  rw [records, b.entries_put_of_new h, List.map_append]
  rfl

theorem extends_put_of_new (h : entry.agreementId ∉ b.entries.map Prod.fst) :
    Extends (b.put entry.agreementId entry) b := by
  rw [Extends, b.entries_put_of_new h]
  exact List.prefix_append _ _

end AgreementBook

/-! ## Sessions -/

/-- What an engine can be asked to do. -/
inductive Operation where
  | negotiate (recipient : String) (request : Contract)
  | downloadMetadata (recipient : String) (resources artifacts : List String)
      (autoDownload : Bool)
  | downloadAppResource (recipient app : String)
  | downloadArtifacts (recipient : String) (artifacts : List String) (agreementId : String)
  | downloadAppArtifact (recipient app : String)

/-- All operations but negotiations are downloads. -/
def Operation.IsDownload : Operation → Prop
  | .negotiate _ _ => False
  | _ => True

namespace Operation

def recipient : Operation → String
  | .negotiate recipient _ | .downloadMetadata recipient _ _ _ | .downloadAppResource recipient _
  | .downloadArtifacts recipient _ _ | .downloadAppArtifact recipient _ => recipient

/-- Whether an operation only records that a reply was not stored. -/
def records (policy : FailurePolicy) : Operation → Bool
  | .downloadArtifacts _ _ _ => policy = .carryOn
  | _ => false

end Operation

instance : DecidablePred Operation.IsDownload
  | .negotiate _ _ => .isFalse id
  | .downloadMetadata _ _ _ _ | .downloadAppResource _ _ | .downloadArtifacts _ _ _
  | .downloadAppArtifact _ _ => .isTrue trivial

inductive Product where
  | agreement (agreement : Contract)
  | artifacts (results : List ArtifactResult)
  | nothing

/-- What a download ends with, given what became of its jobs. -/
def Operation.product : Operation → List (Option Error) → Product
  | .downloadArtifacts _ artifacts _, failures =>
    .artifacts (artifacts.zipWith ArtifactResult.mk failures)
  | _, _ => .nothing

def Product.agreement? : Product → Option Contract
  | agreement c => some c
  | _ => none

namespace Engine

def operate (e : Engine σ) : Operation → Exchange σ Product
  | .negotiate recipient request => do return .agreement (← e.negotiate recipient request)
  | .downloadMetadata recipient resources artifacts autoDownload => do
    e.downloadMetadata recipient resources artifacts autoDownload
    return .nothing
  | .downloadAppResource recipient app => do
    e.downloadAppResource recipient app
    return .nothing
  | .downloadArtifacts recipient artifacts agreementId => do
    return .artifacts (← e.downloadArtifacts recipient artifacts agreementId)
  | .downloadAppArtifact recipient app => do
    e.downloadAppArtifact recipient app
    return .nothing

/-- Where the run stands after a session. -/
def session (e : Engine σ) : List Operation → Run σ → Run σ
  | [], r => r
  | op :: rest, r => e.session rest (after (e.operate op) r)

/-- What the operations of a session end with, in their order. -/
def results (e : Engine σ) : List Operation → Run σ → List (Except Error Product)
  | [], _ => []
  | op :: rest, r => outcome (e.operate op) r :: e.results rest (after (e.operate op) r)

/-- The agreements that the negotiations of a session returned. -/
def negotiated (e : Engine σ) (ops : List Operation) (r : Run σ) : List Contract :=
  (e.results ops r).filterMap fun result => result.toOption.bind Product.agreement?

/-- The identifier for a record that comes from the identifier drawn last. -/
def lastLocalId (e : Engine σ) (r : Run σ) : String :=
  (e.uuidAt (r.drawn - 1)).localId "agr"

/-- Whenever a negotiation returns, the identifier that it drew for its record is not in the book
yet. -/
def Fresh (e : Engine σ) : List Operation → Run σ → Prop
  | [], _ => True
  | op :: rest, r =>
    (∀ c, outcome (e.operate op) r = .ok (.agreement c) →
      e.lastLocalId (after (e.operate op) r) ∉ r.book.entries.map Prod.fst) ∧
    e.Fresh rest (after (e.operate op) r)

/-! ## One operation -/

/-- What one operation does to the book: a returned agreement puts one record there, under the
identifier drawn last; everything else leaves the book as it is. -/
inductive BookStep (e : Engine σ) (op : Operation) (r : Run σ) : Prop where
  | entered (c : Contract) (entry : AgreementRecord)
      (result : outcome (e.operate op) r = .ok (.agreement c))
      (record : entry = ⟨e.lastLocalId (after (e.operate op) r), c.id, some c⟩)
      (book : (after (e.operate op) r).book = r.book.put entry.agreementId entry)
  | kept (result : ∀ c, outcome (e.operate op) r ≠ .ok (.agreement c))
      (book : (after (e.operate op) r).book = r.book)

variable {e : Engine σ}

/-- As an operation, a negotiation does the same and ends with its agreement as a product. -/
theorem perform_operate_negotiate {recipient : String} {request : Contract} {r r' : Run σ}
    {result : Except Error Contract}
    (h : perform (e.negotiate recipient request) r = (result, r')) :
    perform (e.operate (.negotiate recipient request)) r = (result.map Product.agreement, r') := by
  rw [operate, perform_bind, h]
  cases result with
  | ok c => rfl
  | error err => rfl

/-- A negotiation either returns and enters its agreement, or fails and enters nothing. Storing is
its last act, so a failure at any step comes before it. -/
theorem book_negotiate (he : e.agreements = .inMemory) (recipient : String) (request : Contract)
    (r : Run σ) : e.BookStep (.negotiate recipient request) r := by
  have hdeaf : Deaf (σ := σ) Run.book := fun _ _ _ => rfl
  have hbook : (after (Negotiation.run e.toSurroundings e.examiner e.steps recipient request)
      r).book = r.book :=
    Negotiation.keeps_run hdeaf (fun _ _ _ _ => rfl) e.examiner e.steps recipient request r
  cases hrun : perform
      (Negotiation.run e.toSurroundings e.examiner e.steps recipient request) r with
  | mk result r' =>
    rw [after, hrun] at hbook
    cases result with
    | error err =>
      have hfailed := perform_operate_negotiate (perform_negotiate_failed hrun)
      refine .kept ?_ ?_
      · intro c hc
        rw [outcome, hfailed] at hc
        cases hc
      · rw [after, hfailed]
        exact hbook
    | ok n =>
      cases hn : n.agreement with
      | none =>
        -- no step leads here, and if one did, nothing would be entered
        have hfailed := perform_operate_negotiate (perform_negotiate_lacking hrun hn)
        refine .kept ?_ ?_
        · intro c hc
          rw [outcome, hfailed] at hc
          cases hc
        · rw [after, hfailed]
          exact hbook
      | some c =>
        have hreached := perform_operate_negotiate (perform_negotiate_reached hrun hn)
        have hkept : e.kept c r' = after (storeAgreement e.uuidAt c) r' := by
          rw [kept, he]
        rw [hkept, after, perform_storeAgreement] at hreached
        refine .entered c _ ?_ rfl ?_
        · rw [outcome, hreached]
          rfl
        · rw [after, hreached, ← hbook]
          rfl

/-- A negotiation that returns has put one record into the book. -/
theorem book_of_negotiated (he : e.agreements = .inMemory) {recipient : String}
    {request agreement : Contract} {r : Run σ}
    (h : outcome (e.negotiate recipient request) r = .ok agreement) :
    let localId := e.lastLocalId (after (e.negotiate recipient request) r)
    (after (e.negotiate recipient request) r).book =
      r.book.put localId ⟨localId, agreement.id, some agreement⟩ := by
  intro localId
  have hoperate := perform_operate_negotiate (r := r) (Prod.ext h rfl)
  have hafter : after (e.operate (.negotiate recipient request)) r =
      after (e.negotiate recipient request) r := congrArg Prod.snd hoperate
  cases book_negotiate he recipient request r with
  | kept result book => exact absurd (congrArg Prod.fst hoperate) (result agreement)
  | entered c entry result record book =>
    cases (congrArg Prod.fst hoperate).symm.trans result
    rw [hafter] at record book
    rw [book, record]

/-! ### Downloads -/

/-- What an engine looks up and says before a download: the agreement that entitles to artifacts,
by its identifier at the provider. Other downloads need none. -/
def prepare (e : Engine σ) : Operation → Exchange σ String
  | .downloadMetadata recipient resources _ _ => do
    note .info .metadata ("Downloading metadata for " ++ Decimal.ofNat resources.length ++
      " resource(s) from " ++ recipient)
    return ""
  | .downloadArtifacts recipient artifacts agreementId => do
    let transferContract := (← findAgreement e.agreements agreementId).remoteId
    note .info .artifacts ("Downloading " ++ Decimal.ofNat artifacts.length ++
      " artifact(s) from " ++ recipient ++ " under " ++ transferContract ++ " (policy=" ++
      e.policy.name ++ ")")
    return transferContract
  | .negotiate _ _ | .downloadAppResource _ _ | .downloadAppArtifact _ _ => return ""

/-- The jobs of a download, given the agreement that entitles to it. -/
def jobs (e : Engine σ) (transferContract : String) : Operation → List Download.Job
  | .negotiate _ _ => []
  | .downloadMetadata recipient resources artifacts autoDownload =>
    resources.map (.metadata e.depth recipient artifacts autoDownload)
  | .downloadAppResource recipient app => [.appResource e.depth recipient app]
  | .downloadArtifacts recipient artifacts _ => artifacts.map (.artifact recipient transferContract)
  | .downloadAppArtifact recipient app => [.appArtifact recipient app]

theorem usual_of_mem_jobs {transferContract : String} {op : Operation} {j : Download.Job}
    (h : j ∈ e.jobs transferContract op) : j.Usual := by
  cases op with
  | negotiate recipient request => cases h
  | downloadMetadata recipient resources artifacts autoDownload =>
    obtain ⟨resource, -, rfl⟩ := List.mem_map.1 h
    exact .metadata _ _ _ _ _
  | downloadAppResource recipient app =>
    cases List.mem_singleton.1 h
    exact .appResource _ _ _
  | downloadArtifacts recipient artifacts agreementId =>
    obtain ⟨name, -, rfl⟩ := List.mem_map.1 h
    exact .artifact _ _ _
  | downloadAppArtifact recipient app =>
    cases List.mem_singleton.1 h
    exact .appArtifact _ _

/-- **A download is a line of jobs**, after what is looked up and said before it. -/
theorem operate_download (e : Engine σ) {op : Operation} (hop : op.IsDownload) :
    e.operate op = (do
      let transferContract ← e.prepare op
      let failures ← Download.Job.carryOutAll e.toSurroundings e.persistence (op.records e.policy)
        (e.jobs transferContract op)
      return op.product failures) := by
  -- a single item is a line of one job
  have hone : ∀ (j : Download.Job), (do
      let _ ← j.carryOut e.toSurroundings e.persistence false
      return Product.nothing) = (do
      let _ ← Download.Job.carryOutAll e.toSurroundings e.persistence false [j]
      return Product.nothing) := by
    intro j
    simp only [Download.Job.carryOutAll, bind_assoc, pure_bind]
  cases op with
  | negotiate recipient request => exact hop.elim
  | downloadMetadata recipient resources artifacts autoDownload =>
    simp only [operate, downloadMetadata, descriptions, Download.metadata_eq, prepare, bind_assoc,
      pure_bind]
    rfl
  | downloadAppResource recipient app =>
    simp only [operate, downloadAppResource, descriptions, Download.describe_eq, bind_assoc,
      pure_bind]
    exact hone _
  | downloadArtifacts recipient artifacts agreementId =>
    simp only [operate, downloadArtifacts, Download.artifacts_eq, prepare, bind_assoc, pure_bind]
    rfl
  | downloadAppArtifact recipient app =>
    simp only [operate, downloadAppArtifact, Download.appArtifact_eq, bind_assoc, pure_bind]
    exact hone _

theorem congruent_prepare {R : ∀ {α : Type}, Exchange σ α → Exchange σ α → Prop}
    (h : Congruence R)
    (hfind : ∀ id, R (findAgreement e.agreements id) (findAgreement e.agreements id))
    (op : Operation) : R (e.prepare op) (e.prepare op) := by
  cases op with
  | negotiate | downloadAppResource | downloadAppArtifact => exact h.pure _
  | downloadMetadata => exact h.bind (h.note rfl) fun _ => h.pure _
  | downloadArtifacts => exact h.bind (hfind _) fun _ => h.bind (h.note rfl) fun _ => h.pure _

/-- A download is related to itself in other surroundings if its exchanges and lookups are. -/
theorem congruent_download {R : ∀ {α : Type}, Exchange σ α → Exchange σ α → Prop}
    (h : Congruence R) (env : Surroundings σ)
    (hsend : ∀ (s : Service) (d : Descriptor) payload, s.Usual → d.properties = .empty →
      R (s.sendAndValidate e.toSurroundings (some d) payload)
        (s.sendAndValidate env (some d) payload))
    (hkeep : ∀ (j : Download.Job) reply, j.Usual →
      R (Download.keep e.persistence j.errand reply) (Download.keep e.persistence j.errand reply))
    (hfind : ∀ id, R (findAgreement e.agreements id) (findAgreement e.agreements id))
    {op : Operation} (hop : op.IsDownload) : R (e.operate op) ((e.movedTo env).operate op) := by
  have hjobs : ∀ transferContract, R
      (Download.Job.carryOutAll e.toSurroundings e.persistence (op.records e.policy)
        (e.jobs transferContract op))
      (Download.Job.carryOutAll env e.persistence (op.records e.policy)
        (e.jobs transferContract op)) :=
    fun _ => h.carryOutAll env hsend hkeep _ fun _ => usual_of_mem_jobs
  rw [operate_download e hop, operate_download (e.movedTo env) hop]
  exact h.bind (congruent_prepare h hfind op) fun transferContract =>
    h.bind (hjobs transferContract) fun _ => h.pure _

/-- The agreement for artifacts is looked up in the book, which changes nothing there. -/
theorem keeps_book_download {op : Operation} (hop : op.IsDownload) :
    Keeps Run.book (e.operate op) :=
  congruent_download (Keeps.congruence fun _ _ _ => rfl) e.toSurroundings
    (fun _ d payload _ _ => Service.keeps_sendAndValidate (fun _ _ _ => rfl) (some d) payload)
    (fun j reply _ => Keeps.keep (fun _ _ _ => rfl) (Keeps.book_save e.persistence) j.errand reply)
    (Keeps.book_findAgreement e.agreements) hop

theorem outcome_download {op : Operation} (hop : op.IsDownload) (r : Run σ) (c : Contract) :
    outcome (e.operate op) r ≠ .ok (.agreement c) := by
  -- a download ends by wrapping up what it has, and never as an agreement
  have hwrapped : ∀ {α : Type} (x : Exchange σ α) (f : α → Product),
      (∀ a, f a ≠ .agreement c) →
      outcome (x >>= fun a => (pure (f a) : Exchange σ Product)) r ≠ .ok (.agreement c) := by
    intro α x f hf h
    rw [outcome, perform_bind] at h
    cases hperform : perform x r with
    | mk result r' =>
      rw [hperform] at h
      cases result with
      | error err => cases h
      | ok a => exact hf a (Except.ok.inj h)
  cases op with
  | negotiate recipient request => exact hop.elim
  | downloadMetadata | downloadAppResource | downloadAppArtifact =>
    exact hwrapped _ (fun _ => .nothing) fun _ h => by cases h
  | downloadArtifacts recipient artifacts agreementId =>
    exact hwrapped _ .artifacts fun _ h => by cases h

/-- Every operation makes one step of the book. -/
theorem book_operate (he : e.agreements = .inMemory) (op : Operation) (r : Run σ) :
    e.BookStep op r := by
  by_cases hop : op.IsDownload
  · exact .kept (outcome_download hop r) (keeps_book_download hop r)
  · cases op with
    | negotiate recipient request => exact book_negotiate he recipient request r
    | downloadMetadata | downloadAppResource | downloadArtifacts | downloadAppArtifact =>
      exact absurd trivial hop

/-! ## Whole sessions -/

theorem session_append (e : Engine σ) (before rest : List Operation) :
    ∀ r, e.session (before ++ rest) r = e.session rest (e.session before r) := by
  induction before with
  | nil => exact fun _ => rfl
  | cons op before ih => exact fun r => ih (after (e.operate op) r)

/-- Freshness of a session is freshness of its beginning and of what follows. -/
theorem fresh_append {before rest : List Operation} :
    ∀ {r : Run σ}, e.Fresh (before ++ rest) r ↔
      e.Fresh before r ∧ e.Fresh rest (e.session before r) := by
  induction before with
  | nil => exact fun {r} => ⟨fun h => ⟨trivial, h⟩, fun h => h.2⟩
  | cons op before ih =>
    intro r
    rw [List.cons_append, Fresh, Fresh, ih, and_assoc]
    rfl

theorem keyed_session (he : e.agreements = .inMemory) (ops : List Operation) :
    ∀ {r : Run σ}, r.book.Keyed → (e.session ops r).book.Keyed := by
  induction ops with
  | nil => exact fun h => h
  | cons op rest ih =>
    intro r h
    refine ih ?_
    cases book_operate he op r with
    | entered c entry result record book =>
      rw [book]
      exact h.put entry
    | kept result book =>
      rw [book]
      exact h

/-- A session with fresh identifiers only adds to the book, at its end. -/
theorem Fresh.extends_book (he : e.agreements = .inMemory) {ops : List Operation} :
    ∀ {r : Run σ}, e.Fresh ops r → (e.session ops r).book.Extends r.book := by
  induction ops with
  | nil => exact fun {r} _ => r.book.extends_refl
  | cons op rest ih =>
    intro r h
    refine (ih h.2).trans ?_
    cases book_operate he op r with
    | entered c entry result record book =>
      have hnew := h.1 c result
      subst record
      rw [book]
      exact AgreementBook.extends_put_of_new hnew
    | kept result book =>
      rw [book]
      exact r.book.extends_refl

/-- The negotiations of a session that returned: the first operation, then the others. -/
theorem negotiated_cons (op : Operation) (rest : List Operation) (r : Run σ) :
    e.negotiated (op :: rest) r =
      ((outcome (e.operate op) r).toOption.bind Product.agreement?).toList ++
        e.negotiated rest (after (e.operate op) r) := by
  rw [negotiated, results, List.filterMap_cons]
  cases (outcome (e.operate op) r).toOption.bind Product.agreement? with
  | none => rfl
  | some c => rfl

/-- What a session with fresh identifiers adds: one record for each negotiation that returned. -/
theorem Fresh.records_session (he : e.agreements = .inMemory) {ops : List Operation} :
    ∀ {r : Run σ}, e.Fresh ops r →
      ∃ added, (e.session ops r).book.records = r.book.records ++ added ∧
        added.map (fun entry => (entry.remoteId, entry.agreement)) =
          (e.negotiated ops r).map fun c => (c.id, some c) := by
  -- the records of the rest stand behind the one that the first operation adds
  induction ops with
  | nil => exact fun {r} _ => ⟨[], (List.append_nil _).symm, rfl⟩
  | cons op rest ih =>
    intro r h
    obtain ⟨added, hrecords, hadded⟩ := ih h.2
    cases book_operate he op r with
    | entered c entry result record book =>
      have hnew := h.1 c result
      subst record
      rw [book, AgreementBook.records_put_of_new hnew, List.append_assoc] at hrecords
      refine ⟨_, hrecords, ?_⟩
      rw [negotiated_cons, result, List.singleton_append, List.map_cons, hadded]
      rfl
    | kept result book =>
      rw [book] at hrecords
      refine ⟨added, hrecords, ?_⟩
      have hnone : (outcome (e.operate op) r).toOption.bind Product.agreement? = none := by
        cases hproduct : outcome (e.operate op) r with
        | error err => rfl
        | ok p =>
          cases p with
          | agreement c => exact absurd hproduct (result c)
          | artifacts results => rfl
          | nothing => rfl
      rw [negotiated_cons, hnone, hadded]
      rfl

/-- **The book of agreements over a session.** Whatever the peers and the store do, and in whatever
order operations succeed and fail: the book ends with the records of the beginning and then one for
each negotiation that returned, in their order; an operation that is a download or fails leaves it
as it was; and a record that was there at any time is found, unchanged, at every later time. -/
theorem session_keeps_book_of_agreements (e : Engine σ) (he : e.agreements = .inMemory) (world : σ)
    (known : List AgreementRecord) (ops : List Operation)
    (hfresh : e.Fresh ops (.start world (.ofRecords known))) :
    let start := Run.start world (.ofRecords known)
    (∃ added, (e.session ops start).book.records = start.book.records ++ added ∧
      added.map (fun entry => (entry.remoteId, entry.agreement)) =
        (e.negotiated ops start).map fun c => (c.id, some c)) ∧
    (∀ before op rest, ops = before ++ op :: rest →
      (op.IsDownload ∨ ∃ err, outcome (e.operate op) (e.session before start) = .error err) →
      (e.session (before ++ [op]) start).book = (e.session before start).book) ∧
    ∀ before between rest entry, ops = before ++ between ++ rest →
      entry ∈ (e.session before start).book.records →
      perform (findAgreement e.agreements entry.agreementId)
          (e.session (before ++ between) start) =
        (.ok entry, e.session (before ++ between) start) := by
  intro start
  refine ⟨hfresh.records_session he, ?_, ?_⟩
  · intro before op rest _ hop
    rw [session_append]
    rcases hop with hdownload | ⟨err, herr⟩
    · exact keeps_book_download hdownload _
    · cases book_operate he op (e.session before start) with
      | entered c entry result record book =>
        rw [herr] at result
        cases result
      | kept result book => exact book
  · intro before between rest entry hops hentry
    subst hops
    -- what is fresh for the whole session is fresh for the part between the two points
    have hbetween : e.Fresh between (e.session before start) :=
      (fresh_append.1 (fresh_append.1 hfresh).1).2
    have hlater := (hbetween.extends_book he).mem_records hentry
    have hkeyed : (e.session (before ++ between) start).book.Keyed :=
      keyed_session he _ (AgreementBook.keyed_ofRecords known)
    rw [← session_append] at hlater
    rw [he, perform_findAgreement, hkeyed.find_eq hlater]

/-- Two negotiations, with one between them that goes nowhere, and a download. -/
def mixedOperations : List Operation :=
  [.negotiate "https://peer" (.plain "urn:r"), .negotiate "" (.plain "urn:r"),
    .downloadAppResource "https://peer" "urn:app", .negotiate "https://peer" (.plain "urn:q")]

/-- With a granting peer the two negotiations are entered behind what was known. -/
theorem session_withGrantingPeer :
    (((withGrantingPeer (.plain "urn:a")).session mixedOperations
      (.start () (.ofRecords [⟨"known", "urn:b", none⟩]))).book.records.map
        fun entry => (entry.remoteId, entry.agreement)) =
      [("urn:b", none), ("urn:a", some (.plain "urn:a")), ("urn:a", some (.plain "urn:a"))] := by
  have hfresh : (withGrantingPeer (.plain "urn:a")).Fresh mixedOperations
      (.start () (.ofRecords [⟨"known", "urn:b", none⟩])) := by
    -- the second and the third operation return no agreement, so nothing is asked of what they draw
    have hfailed : ∀ {r : Run Unit} {op : Operation} {c : Contract},
        outcome ((withGrantingPeer (.plain "urn:a")).operate op) r = .ok (.agreement c) →
        (outcome ((withGrantingPeer (.plain "urn:a")).operate op) r).toOption.bind
          Product.agreement? ≠ none := by
      intro r op c h
      rw [h]
      exact Option.some_ne_none c
    refine ⟨fun c _ => ?_, fun c h => (hfailed h ?_).elim, fun c h => (hfailed h ?_).elim,
      fun c _ => ?_, trivial⟩
    all_goals decide +kernel
  have hnegotiated : (withGrantingPeer (.plain "urn:a")).negotiated mixedOperations
      (.start () (.ofRecords [⟨"known", "urn:b", none⟩])) = [.plain "urn:a", .plain "urn:a"] := by
    decide +kernel
  obtain ⟨added, hrecords, hadded⟩ :=
    (session_keeps_book_of_agreements (withGrantingPeer (.plain "urn:a")) rfl () _ _ hfresh).1
  rw [hrecords, List.map_append, hadded, hnegotiated]
  rfl

end Engine

end Dataspace
