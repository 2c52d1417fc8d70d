import Dataspace.Download
import Dataspace.Proofs.Chronicle
import Mathlib.Data.List.Forall2

/-!
# Artifacts, one turn after another

A download of artifacts gives each of them one turn: its request goes out, and the reply goes to the
store. What happens in a turn (`Batch.fate`) and where it leaves the run (`Batch.passed`) have
nothing to do with the policy for failures. The policy only looks at the fate of a turn and says
whether there is a next one (`Fate.verdict`).

* **`perform_artifact`** — one turn: the verdict on its fate, and its traffic.
* **`course`** — all turns: they either all have results, or the last one is the first that has
  none.
* **`traffic_artifacts`** — the requests and saves of the turns, and no others.
-/

namespace Dataspace

open Exchange

variable {σ : Type}

namespace Download

/-! ## One turn -/

/-- Artifacts of one peer under one contract, and the store that they go to. -/
structure Batch (σ : Type) where
  env : Surroundings σ
  persistence : Persistence σ
  recipient : String
  transferContract : String

/-- What became of one artifact. -/
inductive Fate where
  /-- Nothing was sent. -/
  | unasked (err : Error)
  /-- No reply came that could be accepted. -/
  | unanswered (call : Call) (err : Error)
  /-- The reply went to the store. -/
  | handed (call : Call) (reply : Response) (saving : Except Error Unit)

namespace Fate

def call? : Fate → Option Call
  | unasked _ => none
  | unanswered call _ | handed call _ _ => some call

def traffic (name : String) : Fate → List Event
  | unasked _ => []
  | unanswered call _ => [.sent call]
  | handed call reply _ => [.sent call, .saved (.data reply name)]

/-- The failure that stands for one of the store's own. -/
def unsaved (name : String) (cause : Error) : Error :=
  .unsaved ((artifactErrand name).message cause) cause

/-- The result of the artifact, or the error that ends the download. -/
def verdict (policy : FailurePolicy) (name : String) : Fate → Except Error ArtifactResult
  | unasked err | unanswered _ err => .error err
  | handed _ _ (.ok _) => .ok (.stored name)
  | handed _ _ (.error cause) =>
    if cause.isStoreFailure then
      match policy with
      | .abort => .error (unsaved name cause)
      | .carryOn => .ok ⟨name, some (unsaved name cause)⟩
    else .error cause

section Verdicts

variable {call : Call} {reply : Response} {cause : Error} {name : String}

theorem verdict_abort (h : cause.isStoreFailure = true) :
    (handed call reply (.error cause)).verdict .abort name = .error (unsaved name cause) :=
  if_pos h

theorem verdict_carryOn (h : cause.isStoreFailure = true) :
    (handed call reply (.error cause)).verdict .carryOn name =
      .ok ⟨name, some (unsaved name cause)⟩ :=
  if_pos h

/-- What is not the store's own ends the download under both policies. -/
theorem verdict_foreign (h : cause.isStoreFailure = false) (policy : FailurePolicy) :
    (handed call reply (.error cause)).verdict policy name = .error cause :=
  if_neg (Bool.eq_false_iff.1 h)

end Verdicts

end Fate

namespace Batch

variable (b : Batch σ) (name : String) (r : Run σ)

def descriptor : Descriptor :=
  .artifact b.recipient name (some b.transferContract)

/-- The request for an artifact. -/
def call : Call :=
  Service.artifacts.callAt b.env (b.descriptor name) (.text "") r.asked r.drawn

/-- The run when the transport has answered. -/
def answered : Run σ :=
  Service.artifacts.exchanged b.env (b.descriptor name) (.text "") r

/-- The reply, if it is one to such a request. -/
def reply : Except Error Response :=
  Service.artifacts.judged b.recipient (b.env.transport.send (b.call name r) r.world).result

/-- What happens to an artifact whose turn comes at this point of a run. -/
def fate : Fate :=
  match Profile.artifactRequest.accept (some (b.descriptor name)) with
  | .error flaw => .unasked (.descriptor flaw)
  | .ok _ =>
    match b.reply name r with
    | .error err => .unanswered (b.call name r) err
    | .ok reply =>
      .handed (b.call name r) reply (outcome (save b.persistence (.data reply name))
        (b.answered name r))

abbrev artifact (policy : FailurePolicy) : Exchange σ ArtifactResult :=
  Download.artifact b.env b.persistence policy b.recipient b.transferContract name

abbrev artifacts (policy : FailurePolicy) (names : List String) :
    Exchange σ (List ArtifactResult) :=
  Download.artifacts b.env b.persistence policy b.recipient b.transferContract names

/-- Where the turn of an artifact leaves the run. -/
def passed : Run σ :=
  after (b.artifact name .carryOn) r

end Batch

namespace Batch

variable {b : Batch σ} {name : String} {r : Run σ}

section Fates

theorem fate_unasked {flaw : DescriptorFlaw}
    (h : Profile.artifactRequest.accept (some (b.descriptor name)) = .error flaw) :
    b.fate name r = .unasked (.descriptor flaw) := by
  rw [fate, h]

theorem fate_unanswered {d : Descriptor} {err : Error}
    (h : Profile.artifactRequest.accept (some (b.descriptor name)) = .ok d)
    (hreply : b.reply name r = .error err) : b.fate name r = .unanswered (b.call name r) err := by
  rw [fate, h]
  simp only [hreply]

theorem fate_handed {d : Descriptor} {reply : Response} {saving : Except Error Unit}
    (h : Profile.artifactRequest.accept (some (b.descriptor name)) = .ok d)
    (hreply : b.reply name r = .ok reply)
    (hsaving : outcome (save b.persistence (.data reply name)) (b.answered name r) = saving) :
    b.fate name r = .handed (b.call name r) reply saving := by
  rw [fate, h]
  simp only [hreply, hsaving]

/-- Nothing is sent, or no reply is accepted, or the reply goes to the store. -/
theorem fate_cases (b : Batch σ) (name : String) (r : Run σ) :
    (∃ flaw, b.fate name r = .unasked (.descriptor flaw)) ∨
    (∃ err, b.reply name r = .error err ∧
      b.fate name r = .unanswered (b.call name r) err) ∨
    ∃ reply, b.reply name r = .ok reply ∧ b.fate name r = .handed (b.call name r) reply
      (outcome (save b.persistence (.data reply name)) (b.answered name r)) := by
  cases haccept : Profile.artifactRequest.accept (some (b.descriptor name)) with
  | error flaw => exact .inl ⟨flaw, fate_unasked haccept⟩
  | ok d =>
    cases hreply : b.reply name r with
    | error err => exact .inr (.inl ⟨err, rfl, fate_unanswered haccept hreply⟩)
    | ok reply => exact .inr (.inr ⟨reply, rfl, fate_handed haccept hreply rfl⟩)

end Fates

/-- A turn ends at one point of the run under both policies. -/
theorem exists_perform_artifact (b : Batch σ) (name : String) (r : Run σ) :
    ∃ r', r'.traffic = r.traffic ++ (b.fate name r).traffic name ∧
      ∀ policy, perform (b.artifact name policy) r = ((b.fate name r).verdict policy name, r') := by
  cases haccept : Profile.artifactRequest.accept (some (b.descriptor name)) with
  | error flaw =>
    rw [fate_unasked haccept]
    refine ⟨r, (List.append_nil _).symm, fun policy => ?_⟩
    apply perform_bind_error
    exact Service.perform_sendAndValidate_refused b.env haccept _ r
  | ok d =>
    have hd := Profile.eq_of_accept haccept
    subst hd
    have hfetch : perform (fetch b.env b.recipient name (some b.transferContract)) r =
        (b.reply name r, b.answered name r) :=
      Service.perform_sendAndValidate b.env haccept _ r
    have hanswered : (b.answered name r).traffic = r.traffic ++ [.sent (b.call name r)] :=
      Service.traffic_exchanged _ _ _ _ _
    cases hreply : b.reply name r with
    | error err =>
      rw [hreply] at hfetch
      rw [fate_unanswered haccept hreply]
      exact ⟨_, hanswered, fun policy => perform_bind_error hfetch⟩
    | ok reply =>
      rw [hreply] at hfetch
      have hkeep := perform_keep b.persistence (artifactErrand name) reply (b.answered name r)
      rw [show (artifactErrand name).save reply = .data reply name from rfl] at hkeep
      have hsave := traffic_save b.persistence (.data reply name) (b.answered name r)
      rw [hanswered, List.append_assoc] at hsave
      -- the policy is asked only after the store has failed in a way of its own
      cases hsaving : outcome (save b.persistence (.data reply name)) (b.answered name r) with
      | ok _ =>
        rw [hsaving] at hkeep
        rw [fate_handed haccept hreply hsaving]
        refine ⟨_, hsave, fun policy => ?_⟩
        unfold artifact Download.artifact
        rw [perform_bind_ok hfetch, perform_bind_ok hkeep]
        rfl
      | error cause =>
        rw [hsaving] at hkeep
        rw [fate_handed haccept hreply hsaving]
        cases hfailure : cause.isStoreFailure with
        | true =>
          simp only [hfailure, if_true] at hkeep
          -- the warning about the failure is no traffic
          have hwarned : ((after (save b.persistence (.data reply name)) (b.answered name r)).extended
              (Event.ofNotes (artifactErrand name).component
                [(.warning, (artifactErrand name).warning cause)])).traffic =
              r.traffic ++ [.sent (b.call name r), .saved (.data reply name)] := by
            rw [Run.traffic_extended, hsave, Event.filter_isTraffic_ofNotes, List.append_nil]
            rfl
          refine ⟨_, hwarned, fun policy => ?_⟩
          unfold artifact Download.artifact
          rw [perform_bind_ok hfetch, perform_bind_ok hkeep]
          cases policy with
          | abort =>
            rw [Fate.verdict_abort hfailure]
            rfl
          | carryOn =>
            rw [Fate.verdict_carryOn hfailure]
            rfl
        | false =>
          simp only [hfailure, Bool.false_eq_true, if_false] at hkeep
          refine ⟨_, hsave, fun policy => ?_⟩
          unfold artifact Download.artifact
          rw [perform_bind_ok hfetch, perform_bind_error hkeep, Fate.verdict_foreign hfailure]

end Batch

/-! ## All turns -/

/-- The turn of one artifact. -/
structure Turn where
  artifact : String
  fate : Fate

namespace Turn

def verdict (policy : FailurePolicy) (t : Turn) : Except Error ArtifactResult :=
  t.fate.verdict policy t.artifact

def traffic (t : Turn) : List Event :=
  t.fate.traffic t.artifact

end Turn

namespace Batch

def turn (b : Batch σ) (name : String) (r : Run σ) : Turn :=
  ⟨name, b.fate name r⟩

/-- The turns of a download: all up to the first without a result. -/
def turns (b : Batch σ) (policy : FailurePolicy) : List String → Run σ → List Turn
  | [], _ => []
  | name :: rest, r =>
    match (b.turn name r).verdict policy with
    | .error _ => [b.turn name r]
    | .ok _ => b.turn name r :: b.turns policy rest (b.passed name r)

/-- The run after the turns of several artifacts, none of which ended the download. -/
def passedAll (b : Batch σ) (names : List String) (r : Run σ) : Run σ :=
  names.foldl (fun r name => b.passed name r) r

variable {b : Batch σ} {policy : FailurePolicy} {name : String} {rest : List String} {r : Run σ}

theorem perform_artifact (b : Batch σ) (policy : FailurePolicy) (name : String) (r : Run σ) :
    perform (b.artifact name policy) r = ((b.turn name r).verdict policy, b.passed name r) := by
  obtain ⟨r', -, hperform⟩ := b.exists_perform_artifact name r
  have hpassed : b.passed name r = r' := by
    unfold passed after
    rw [hperform .carryOn]
  rw [hperform policy, hpassed]
  rfl

theorem traffic_passed (b : Batch σ) (name : String) (r : Run σ) :
    (b.passed name r).traffic = r.traffic ++ (b.turn name r).traffic := by
  obtain ⟨r', htraffic, hperform⟩ := b.exists_perform_artifact name r
  unfold passed after
  rw [hperform .carryOn, htraffic]
  rfl

/-- A turn without a result is the last one. -/
theorem turns_cons_error {err : Error} (h : (b.turn name r).verdict policy = .error err) :
    b.turns policy (name :: rest) r = [b.turn name r] := by
  rw [turns, h]

theorem turns_cons_ok {result : ArtifactResult}
    (h : (b.turn name r).verdict policy = .ok result) :
    b.turns policy (name :: rest) r = b.turn name r :: b.turns policy rest (b.passed name r) := by
  rw [turns, h]

theorem perform_artifacts_error {err : Error}
    (h : (b.turn name r).verdict policy = .error err) :
    perform (b.artifacts policy (name :: rest)) r = (.error err, b.passed name r) := by
  have hfirst := b.perform_artifact policy name r
  rw [h] at hfirst
  unfold artifacts Download.artifacts
  exact perform_bind_error hfirst

theorem perform_artifacts_ok {result : ArtifactResult}
    (h : (b.turn name r).verdict policy = .ok result) :
    perform (b.artifacts policy (name :: rest)) r =
      ((outcome (b.artifacts policy rest) (b.passed name r)).map (result :: ·),
        after (b.artifacts policy rest) (b.passed name r)) := by
  have hfirst := b.perform_artifact policy name r
  rw [h] at hfirst
  unfold artifacts
  rw [Download.artifacts, perform_bind_ok hfirst, perform_bind]
  unfold outcome after
  cases perform (Download.artifacts b.env b.persistence policy b.recipient b.transferContract rest)
      (b.passed name r) with
  | mk found r' =>
    cases found with
    | error err => rfl
    | ok results => rfl

/-- **The requests and saves of a download** are those of its turns. -/
theorem traffic_artifacts (b : Batch σ) (policy : FailurePolicy) (names : List String) :
    ∀ r, (after (b.artifacts policy names) r).traffic =
      r.traffic ++ (b.turns policy names r).flatMap Turn.traffic := by
  induction names with
  | nil => exact fun r => (List.append_nil _).symm
  | cons name rest ih =>
    intro r
    rw [after]
    cases h : (b.turn name r).verdict policy with
    | error err =>
      rw [perform_artifacts_error h, turns_cons_error h, traffic_passed, List.flatMap_singleton]
    | ok result =>
      rw [perform_artifacts_ok h, turns_cons_ok h, ih, traffic_passed, List.flatMap_cons,
        List.append_assoc]

/-- What a download comes to, given its turns. -/
inductive Ending (policy : FailurePolicy) (names : List String) (turns : List Turn) :
    Except Error (List ArtifactResult) → Prop
  /-- Every artifact had its turn, and every turn has a result. -/
  | complete {results : List ArtifactResult} (artifacts : turns.map Turn.artifact = names)
      (verdicts : List.Forall₂ (fun t result => t.verdict policy = .ok result) turns results) :
      Ending policy names turns (.ok results)
  /-- The last turn is the first without a result; the artifacts after it had none. -/
  | cut (earlier : List Turn) (last : Turn) {err : Error} (turns_eq : turns = earlier ++ [last])
      (artifacts : turns.map Turn.artifact <+: names)
      (verdicts : ∀ t ∈ earlier, ∃ result, t.verdict policy = .ok result)
      (verdict : last.verdict policy = .error err) :
      Ending policy names turns (.error err)

theorem Ending.prefix_artifacts {turns : List Turn} {names : List String}
    {result : Except Error (List ArtifactResult)} (h : Ending policy names turns result) :
    turns.map Turn.artifact <+: names := by
  cases h with
  | complete artifacts _ => exact ⟨[], (List.append_nil _).trans artifacts⟩
  | cut _ _ _ artifacts _ _ => exact artifacts

/-- **The course of a download.** -/
theorem course (b : Batch σ) (policy : FailurePolicy) (names : List String) :
    ∀ r, Ending policy names (b.turns policy names r) (outcome (b.artifacts policy names) r) := by
  induction names with
  | nil => exact fun r => .complete rfl .nil
  | cons name rest ih =>
    intro r
    unfold outcome
    cases h : (b.turn name r).verdict policy with
    | error err =>
      rw [perform_artifacts_error h, turns_cons_error h]
      exact .cut [] _ rfl ⟨rest, rfl⟩ (fun t ht => by cases ht) h
    | ok result =>
      rw [perform_artifacts_ok h, turns_cons_ok h]
      -- the other turns are those of a download that begins where the first turn ended
      have hrest := ih (b.passed name r)
      cases hresult : outcome (b.artifacts policy rest) (b.passed name r) with
      | error err =>
        rw [hresult] at hrest
        cases hrest with
        | cut earlier last turns_eq artifacts verdicts verdict =>
          refine .cut (b.turn name r :: earlier) last (by rw [turns_eq]; rfl) ?_ ?_ verdict
          · exact List.cons_prefix_cons.2 ⟨rfl, artifacts⟩
          · intro t ht
            rcases List.mem_cons.1 ht with rfl | ht
            · exact ⟨result, h⟩
            · exact verdicts t ht
      | ok results =>
        rw [hresult] at hrest
        cases hrest with
        | complete artifacts verdicts =>
          exact .complete (by rw [List.map_cons, artifacts]; rfl) (.cons h verdicts)

/-- Each turn comes at the point of the run where the turns before it end. -/
theorem turns_eq_turn (b : Batch σ) (policy : FailurePolicy) (names : List String) :
    ∀ {r : Run σ} {earlier later : List Turn} {t : Turn},
      b.turns policy names r = earlier ++ t :: later →
      t = b.turn t.artifact (b.passedAll (earlier.map Turn.artifact) r) := by
  induction names with
  | nil =>
    intro r earlier later t h
    cases earlier <;> cases h
  | cons name rest ih =>
    intro r earlier later t h
    cases hverdict : (b.turn name r).verdict policy with
    | error err =>
      rw [turns_cons_error hverdict] at h
      cases earlier with
      | nil => cases h; rfl
      | cons t' earlier => cases earlier <;> cases h
    | ok result =>
      rw [turns_cons_ok hverdict] at h
      cases earlier with
      | nil => cases h; rfl
      | cons t' earlier =>
        -- the first turn is that of the first artifact, and the others come after it
        obtain ⟨hfirst, hrest⟩ := List.cons.inj h
        have hturn := ih hrest
        rw [List.map_cons, ← hfirst]
        exact hturn

/-! ### Independence of the chronicle -/

theorem blind_artifact (b : Batch σ) (policy : FailurePolicy) (name : String) :
    Blind (b.artifact name policy) := by
  have hjob : Blind ((Job.artifact b.recipient b.transferContract name).carryOut b.env
      b.persistence (decide (policy = .carryOn))) :=
    Blind.congruence.carryOut b.env (fun s d payload _ _ => Blind.sendAndValidate b.env s d payload)
      (fun j reply _ => Blind.keep b.persistence j.errand reply) _ (.artifact _ _ _)
  unfold artifact
  rw [artifact_eq]
  exact hjob.bind fun _ => Blind.pure _

theorem passed_behind (b : Batch σ) (name : String) (earlier : List Event) (r : Run σ) :
    b.passed name (r.behind earlier) = (b.passed name r).behind earlier := by
  unfold passed after
  rw [b.blind_artifact .carryOn name earlier r]

theorem fate_behind (b : Batch σ) (name : String) (earlier : List Event) (r : Run σ) :
    b.fate name (r.behind earlier) = b.fate name r := by
  have hanswered : ∀ reply, outcome (save b.persistence (.data reply name))
      (b.answered name (r.behind earlier)) =
        outcome (save b.persistence (.data reply name)) (b.answered name r) := by
    intro reply
    unfold outcome
    rw [perform_save, perform_save]
    rfl
  have hreply : b.reply name (r.behind earlier) = b.reply name r := rfl
  unfold fate
  simp only [hanswered, hreply]
  rfl

theorem turns_behind (b : Batch σ) (policy : FailurePolicy) (names : List String)
    (earlier : List Event) :
    ∀ r, b.turns policy names (r.behind earlier) = b.turns policy names r := by
  induction names with
  | nil => exact fun _ => rfl
  | cons name rest ih =>
    intro r
    have hturn : b.turn name (r.behind earlier) = b.turn name r :=
      congrArg (Turn.mk name) (b.fate_behind name earlier r)
    unfold turns
    rw [hturn, passed_behind, ih]

/-- What was said before has no influence on the turns. -/
@[simp] theorem turns_extended (b : Batch σ) (policy : FailurePolicy) (names : List String)
    (r : Run σ) (events : List Event) :
    b.turns policy names (r.extended events) = b.turns policy names r := by
  rw [Run.extended_eq_behind, turns_behind, ← b.turns_behind policy names r.events, r.behind_silent]

end Batch

end Download

end Dataspace
