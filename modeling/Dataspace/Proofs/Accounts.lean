import Dataspace.Proofs.Lines
import Mathlib.Data.List.Forall2
import Mathlib.Data.List.ReduceOption

/-!
# How failures to store are accounted for

A store may fail in ways of its own. A download that meets such a failure either records it and goes
on, or ends with it, and no such failure is lost:

* **`Accounts`** — what an operation returns records all of these failures, or what it raises stands
  for the only one.
* **`accounts_operate`** — every operation accounts for them.
-/

namespace Dataspace

open Exchange

variable {σ : Type}

/-- The failures that are recorded in what an operation returns. -/
def Product.failures : Product → List Error
  | artifacts results => results.filterMap ArtifactResult.failure
  | agreement _ | nothing => []

/-- A failure of the store's own. -/
def Answer.caught? : Answer → Option Error
  | saved _ (.error cause) => if cause.isStoreFailure then some cause else none
  | _ => none

/-- The failures of the store's own among these answers. -/
def Answer.allCaught (answers : List Answer) : List Error :=
  answers.filterMap Answer.caught?

/-- How callers see a failure to store: by its kind and by what it was raised from. -/
def Error.StandsFor (err cause : Error) : Prop :=
  err.family = .persistence ∧ err.cause = some cause

theorem Error.map_of_standsFor {errs causes : List Error}
    (h : List.Forall₂ StandsFor errs causes) :
    errs.map (fun err => (err.family, err.cause)) =
      causes.map fun cause => (.persistence, some cause) := by
  induction h with
  | nil => rfl
  | cons first others ih =>
    rw [List.map_cons, List.map_cons, ih, first.1, first.2]

/-- An operation accounts for the failures of the store. If it returns, all of them are recorded in
what it returns, one by one and in their order, and an operation that records none has heard none.
If it fails and records none, it has heard one at most, at its end, and raises it. -/
structure Accounts (records : Bool) (answers : List Answer) (result : Except Error Product) :
    Prop where
  recorded : ∀ product, result = .ok product →
    List.Forall₂ Error.StandsFor product.failures (Answer.allCaught answers) ∧
    (records = false → Answer.allCaught answers = [])
  raised : ∀ err, result = .error err → records = false →
    Answer.allCaught answers = [] ∨
    ∃ before save cause, answers = before ++ [.saved save (.error cause)] ∧
      Answer.allCaught before = [] ∧ cause.isStoreFailure = true ∧ err.StandsFor cause

section Jobs

open Download

variable {jobs : List Job} {j : Job} {records : Bool} {answers : List Answer}
  {failures : List (Option Error)} {result : Except Error (List (Option Error))}

/-- A job that has returned has recorded what it has heard of them. -/
theorem Download.Job.Ends.recorded {failure : Option Error}
    (h : j.Ends records answers (.ok failure)) :
    List.Forall₂ Error.StandsFor failure.toList (Answer.allCaught answers) ∧
      (records = false → Answer.allCaught answers = []) := by
  generalize hended : Except.ok failure = ended at h
  cases h with
  | refused | unsent | unexpected => cases hended
  | handed asks kind saving =>
    cases saving with
    | ok _ =>
      cases hended
      exact ⟨.nil, fun _ => rfl⟩
    | error cause =>
      cases hfailure : cause.isStoreFailure with
      | false =>
        rw [Job.stored_foreign hfailure] at hended
        cases hended
      | true =>
        cases records with
        | false =>
          rw [Job.stored_raised hfailure] at hended
          cases hended
        | true =>
          rw [Job.stored_recorded hfailure] at hended
          cases hended
          simp only [Answer.allCaught, List.filterMap_cons, Answer.caught?, hfailure, if_true]
          exact ⟨.cons ⟨rfl, rfl⟩ .nil, fun h => by cases h⟩

/-- A job that has failed and records nothing raises what it has heard of them. -/
theorem Download.Job.Ends.raised {err : Error} (h : j.Ends false answers (.error err)) :
    Answer.allCaught answers = [] ∨
    ∃ before save cause, answers = before ++ [.saved save (.error cause)] ∧
      Answer.allCaught before = [] ∧ cause.isStoreFailure = true ∧ err.StandsFor cause := by
  generalize hended : Except.error err = ended at h
  cases h with
  | refused | unsent | unexpected => exact .inl rfl
  | @handed call reply asks kind saving =>
    cases saving with
    | ok _ => cases hended
    | error cause =>
      cases hfailure : cause.isStoreFailure with
      | false =>
        left
        simp only [Answer.allCaught, List.filterMap_cons, Answer.caught?, hfailure,
          Bool.false_eq_true, if_false, List.filterMap_nil]
      | true =>
        rw [Job.stored_raised hfailure] at hended
        cases hended
        exact .inr ⟨[.sent call (.ok reply)], _, cause, rfl, rfl, hfailure, rfl, rfl⟩

theorem Download.Job.Returned.recorded (h : Job.Returned records jobs answers failures) :
    List.Forall₂ Error.StandsFor failures.reduceOption (Answer.allCaught answers) ∧
      (records = false → Answer.allCaught answers = []) := by
  induction h with
  | nil => exact ⟨.nil, fun _ => rfl⟩
  | @cons j rest answers more failure failures first others ih =>
    obtain ⟨hfirst, hnone⟩ := first.recorded
    obtain ⟨hothers, hnone'⟩ := ih
    have happend : Answer.allCaught (answers ++ more) =
        Answer.allCaught answers ++ Answer.allCaught more := List.filterMap_append
    rw [happend]
    refine ⟨?_, fun h => ?_⟩
    · have hfailures : (failure :: failures).reduceOption =
          failure.toList ++ failures.reduceOption := by
        cases failure <;> rfl
      rw [hfailures]
      exact List.rel_append hfirst hothers
    · rw [hnone h, hnone' h]
      rfl

theorem Download.Job.Returned.length_eq (h : Job.Returned records jobs answers failures) :
    failures.length = jobs.length := by
  induction h with
  | nil => rfl
  | cons first others ih => rw [List.length_cons, List.length_cons, ih]

/-- The results of a download of artifacts have the failures of its jobs. -/
theorem ArtifactResult.filterMap_failure (names : List String) :
    ∀ {failures : List (Option Error)}, failures.length = names.length →
      (names.zipWith ArtifactResult.mk failures).filterMap failure = failures.reduceOption := by
  induction names with
  | nil =>
    intro failures h
    cases List.eq_nil_of_length_eq_zero h
    rfl
  | cons name rest ih =>
    intro failures h
    cases failures with
    | nil => cases h
    | cons failure failures =>
      rw [List.zipWith_cons_cons, List.filterMap_cons, ih (Nat.succ.inj h)]
      cases failure <;> rfl

theorem Download.Job.Course.accounts {op : Operation} {policy : FailurePolicy} {e : Engine σ}
    {transferContract : String}
    (h : Job.Course (op.records policy) (e.jobs transferContract op) answers result) :
    Accounts (op.records policy) answers (result.map op.product) := by
  cases h with
  | @complete _ failures returned =>
    obtain ⟨hrecorded, hnone⟩ := returned.recorded
    refine ⟨fun product hproduct => ?_, fun _ h => (by cases h)⟩
    cases hproduct
    refine ⟨?_, hnone⟩
    cases op with
    | downloadArtifacts recipient names agreementId =>
      have hlength : failures.length = names.length :=
        returned.length_eq.trans (List.length_map _)
      rw [← ArtifactResult.filterMap_failure names hlength] at hrecorded
      exact hrecorded
    | negotiate | downloadMetadata | downloadAppResource | downloadAppArtifact =>
      rw [hnone rfl]
      exact .nil
  | @halted earlier j rest before last failures err jobs_eq returned ends =>
    refine ⟨fun _ h => (by cases h), fun err' herr hrecords => ?_⟩
    cases herr
    rw [hrecords] at returned ends
    have hbefore := returned.recorded.2 rfl
    have happend : ∀ more, Answer.allCaught (before ++ more) = Answer.allCaught more := by
      intro more
      rw [Answer.allCaught, List.filterMap_append]
      exact congrArg (· ++ Answer.allCaught more) hbefore
    rcases ends.raised with hnone | ⟨middle, save, cause, hlast, hmiddle, hfailure, hstands⟩
    · exact .inl ((happend last).trans hnone)
    · refine .inr ⟨before ++ middle, save, cause, ?_, (happend middle).trans hmiddle, hfailure,
        hstands⟩
      rw [hlast, List.append_assoc]

end Jobs

namespace Engine

/-- **Every operation accounts for the failures of the store.** -/
theorem accounts_operate (e : Engine σ) (op : Operation) (r : Run σ) :
    Accounts (op.records e.policy) (e.answers op r) (outcome (e.operate op) r) := by
  by_cases hop : op.IsDownload
  · rcases download_course e hop r with ⟨_, err, -, herr, hnone⟩ | ⟨_, result, hresult, hcourse⟩
    · rw [herr, hnone]
      exact
        { recorded := fun _ h => by cases h
          raised := fun _ _ _ => .inl rfl }
    · rw [hresult]
      exact hcourse.accounts
  · cases op with
    | negotiate recipient request =>
      -- nothing went to the store, so it has not failed
      have hnone : Answer.allCaught (e.answers (.negotiate recipient request) r) = [] := by
        refine List.filterMap_eq_nil_iff.2 fun a ha => ?_
        have hsave := List.filterMap_eq_nil_iff.1 (saves_negotiate e recipient request r) a ha
        cases a with
        | sent => rfl
        | saved save result => cases hsave
      refine ⟨fun product hproduct => ?_, fun _ _ _ => .inl hnone⟩
      have hfailures : product.failures = [] := by
        rw [outcome, operate, perform_bind_pure] at hproduct
        cases hresult : outcome (e.negotiate recipient request) r with
        | error err =>
          rw [hresult] at hproduct
          cases hproduct
        | ok agreement =>
          rw [hresult] at hproduct
          cases hproduct
          rfl
      rw [hfailures, hnone]
      exact ⟨.nil, fun _ => rfl⟩
    | downloadMetadata | downloadAppResource | downloadArtifacts | downloadAppArtifact =>
      exact absurd trivial hop

end Engine

end Dataspace
