import Dataspace.Proofs.ArtifactDownload

/-!
# Aborting and carrying on

One download of artifacts under both policies, from the same point of a run. The policy counts only
for a turn in which the store fails in a way of its own (`Turn.FailsToStore`), and under `abort` such
a turn is the last one:

* **`abort_prefix_carryOn`** — the turns under `abort` are the first ones under `carryOn`.
* **`turns_eq_of_stored`**, **`Ending.of_stored`** — if the store never fails in such a way, the
  policy makes no difference.
* **`failure_policies_agree`** — what follows for the engine: up to the first such failure it does
  the same, and what it raises for it under `abort` it reports under `carryOn`.
-/

namespace Dataspace

open Exchange Download

variable {σ : Type}

/-- What stands beside one element in the middle of a list, and beside those in front of it. -/
theorem forall₂_append_cons {α β : Type} {R : α → β → Prop} {xs rest : List α} {x : α}
    {ys : List β} (h : List.Forall₂ R (xs ++ x :: rest) ys) :
    List.Forall₂ R xs (ys.take xs.length) ∧ ∃ y, R x y ∧ ys[xs.length]? = some y := by
  have hfront := List.forall₂_take xs.length h
  have hback := List.forall₂_drop xs.length h
  rw [List.take_left] at hfront
  rw [List.drop_left] at hback
  obtain ⟨y, ys', hy, -, hdrop⟩ := List.forall₂_cons_left_iff.1 hback
  refine ⟨hfront, y, hy, ?_⟩
  rw [← List.head?_drop, hdrop, List.head?_cons]

namespace Download

/-! ## One turn under both policies -/

namespace Turn

/-- The store fails in a way of its own. -/
def FailsToStore (t : Turn) : Prop :=
  ∃ call reply cause, t.fate = .handed call reply (.error cause) ∧ cause.isStoreFailure = true

variable {t : Turn} {p : FailurePolicy} {result : ArtifactResult} {err : Error}

/-- Where the store does not fail in a way of its own, nobody asks for the policy. -/
theorem verdict_eq (h : ¬ t.FailsToStore) (p q : FailurePolicy) : t.verdict p = t.verdict q := by
  obtain ⟨name, fate⟩ := t
  cases fate with
  | unasked err => rfl
  | unanswered call err => rfl
  | handed call reply saving =>
    cases saving with
    | ok _ => rfl
    | error cause =>
      have hforeign : cause.isStoreFailure = false :=
        Bool.eq_false_iff.2 fun hstore => h ⟨call, reply, cause, rfl, hstore⟩
      exact (Fate.verdict_foreign hforeign p).trans (Fate.verdict_foreign hforeign q).symm

/-- Such a failure is raised under one policy and reported under the other, as the same error. -/
theorem FailsToStore.verdicts (h : t.FailsToStore) :
    ∃ err, t.verdict .abort = .error err ∧ t.verdict .carryOn = .ok ⟨t.artifact, some err⟩ := by
  obtain ⟨name, fate⟩ := t
  obtain ⟨call, reply, cause, hfate, hstore⟩ := h
  cases hfate
  exact ⟨_, Fate.verdict_abort hstore, Fate.verdict_carryOn hstore⟩

theorem not_failsToStore_of_abort (h : t.verdict .abort = .ok result) : ¬ t.FailsToStore := by
  intro hfails
  obtain ⟨err, herr, -⟩ := hfails.verdicts
  cases herr.symm.trans h

theorem carryOn_of_abort (h : t.verdict .abort = .ok result) : t.verdict .carryOn = .ok result :=
  (verdict_eq (not_failsToStore_of_abort h) _ _).trans h

/-- Under `abort` a result says that the artifact was stored. -/
theorem failure_of_abort (h : t.verdict .abort = .ok result) : result.failure = none := by
  cases reported_of_verdict h with
  | stored => rfl
  | unstored carriesOn _ _ _ => cases carriesOn

/-- So do the results under `carryOn` of turns that have some under `abort`. -/
theorem failure_of_abort_all {turns : List Turn} {results : List ArtifactResult}
    (habort : ∀ t ∈ turns, ∃ result, t.verdict .abort = .ok result)
    (hcarry : List.Forall₂ (fun t result => t.verdict .carryOn = .ok result) turns results) :
    ∀ result ∈ results, result.failure = none := by
  induction hcarry with
  | nil => exact fun _ h => absurd h List.not_mem_nil
  | cons hcarried _ ih =>
    intro result hmem
    rcases List.mem_cons.1 hmem with rfl | hmem
    · obtain ⟨result', hresult'⟩ := habort _ List.mem_cons_self
      cases (carryOn_of_abort hresult').symm.trans hcarried
      exact failure_of_abort hresult'
    · exact ih (fun t ht => habort t (List.mem_cons_of_mem _ ht)) result hmem

end Turn

/-! ## All turns under both policies -/

namespace Batch

/-- **Aborting is stopping early.** -/
theorem abort_prefix_carryOn (b : Batch σ) (names : List String) :
    ∀ r, b.turns .abort names r <+: b.turns .carryOn names r := by
  induction names with
  | nil => exact fun _ => List.prefix_refl _
  | cons name rest ih =>
    intro r
    cases habort : (b.turn name r).verdict .abort with
    | ok result =>
      rw [turns_cons_ok habort, turns_cons_ok (Turn.carryOn_of_abort habort)]
      exact List.cons_prefix_cons.2 ⟨rfl, ih (b.passed name r)⟩
    | error err =>
      -- the other policy has at least this turn
      rw [turns_cons_error habort]
      cases hcarry : (b.turn name r).verdict .carryOn with
      | ok result =>
        rw [turns_cons_ok hcarry]
        exact List.cons_prefix_cons.2 ⟨rfl, List.nil_prefix⟩
      | error err' => exact ⟨[], (List.append_nil _).trans (turns_cons_error hcarry).symm⟩

theorem turns_eq_of_stored (b : Batch σ) (p q : FailurePolicy) (names : List String) :
    ∀ r, (∀ t ∈ b.turns p names r, ¬ t.FailsToStore) → b.turns q names r = b.turns p names r := by
  induction names with
  | nil => exact fun _ _ => rfl
  | cons name rest ih =>
    intro r h
    cases hverdict : (b.turn name r).verdict p with
    | error err =>
      rw [turns_cons_error hverdict] at h ⊢
      have hstored := h _ (List.mem_singleton_self _)
      exact turns_cons_error ((Turn.verdict_eq hstored q p).trans hverdict)
    | ok result =>
      rw [turns_cons_ok hverdict] at h ⊢
      have hstored := h _ List.mem_cons_self
      rw [turns_cons_ok ((Turn.verdict_eq hstored q p).trans hverdict),
        ih (b.passed name r) fun t ht => h t (List.mem_cons_of_mem _ ht)]

namespace Ending

variable {p q : FailurePolicy} {names : List String} {turns : List Turn}
  {x y : Except Error (List ArtifactResult)}

/-- The same turns come to the same under the other policy. -/
theorem of_stored (h : Ending p names turns x) (hstored : ∀ t ∈ turns, ¬ t.FailsToStore) :
    Ending q names turns x := by
  cases h with
  | complete artifacts verdicts =>
    refine .complete artifacts (List.forall₂_iff_get.2 ⟨verdicts.length_eq, fun i h₁ h₂ => ?_⟩)
    rw [Turn.verdict_eq (hstored _ (List.get_mem turns ⟨i, h₁⟩)) q p]
    exact verdicts.get h₁ h₂
  | cut earlier last turns_eq artifacts verdicts verdict =>
    refine .cut earlier last turns_eq artifacts (fun t ht => ?_) ?_
    · rw [Turn.verdict_eq (hstored t (turns_eq ▸ List.mem_append_left _ ht)) q p]
      exact verdicts t ht
    · rw [Turn.verdict_eq (hstored last (turns_eq ▸ List.mem_append_right _ List.mem_cons_self)) q p]
      exact verdict

/-- A download that returns under `abort` met no failure of the store. -/
theorem stored_of_abort {results : List ArtifactResult}
    (h : Ending .abort names turns (.ok results)) : ∀ t ∈ turns, ¬ t.FailsToStore := by
  intro t ht
  cases h with
  | complete _ verdicts =>
    obtain ⟨earlier, later, rfl⟩ := List.append_of_mem ht
    obtain ⟨-, result, hresult, -⟩ := forall₂_append_cons verdicts
    exact Turn.not_failsToStore_of_abort hresult

/-- Nor did one that ended at a turn in which the store did not fail. -/
theorem stored_of_cut {earlier : List Turn} {last : Turn}
    (verdicts : ∀ t ∈ earlier, ∃ result, t.verdict .abort = .ok result)
    (hlast : ¬ last.FailsToStore) : ∀ t ∈ earlier ++ [last], ¬ t.FailsToStore := by
  intro t ht
  rcases List.mem_append.1 ht with ht | ht
  · obtain ⟨result, hresult⟩ := verdicts t ht
    exact Turn.not_failsToStore_of_abort hresult
  · rw [List.mem_singleton.1 ht]
    exact hlast

/-- What a download that would have been aborted at a turn reports of it and of those before it. -/
theorem reported_of_carryOn {earlier later : List Turn} {last : Turn} {err : Error}
    {results : List ArtifactResult}
    (verdicts : ∀ t ∈ earlier, ∃ result, t.verdict .abort = .ok result)
    (verdict : last.verdict .abort = .error err)
    (h : Ending .carryOn names (earlier ++ last :: later) (.ok results)) :
    (∀ result ∈ results.take earlier.length, result.failure = none) ∧
      results[earlier.length]? = some ⟨last.artifact, some err⟩ := by
  cases h with
  | complete _ carried =>
    obtain ⟨hfront, result, hresult, hget⟩ := forall₂_append_cons carried
    refine ⟨Turn.failure_of_abort_all verdicts hfront, ?_⟩
    -- an error under one policy and a result under the other is a failure of the store
    have hfails : last.FailsToStore := by
      by_contra hstored
      cases ((Turn.verdict_eq hstored _ _).trans hresult).symm.trans verdict
    obtain ⟨err', herr', hcarried⟩ := hfails.verdicts
    cases herr'.symm.trans verdict
    cases hcarried.symm.trans hresult
    exact hget

/-- Turns that all have results do not end in one that has none. -/
theorem not_cut_of_complete {results : List ArtifactResult} {earlier : List Turn} {last : Turn}
    {err : Error} (verdicts : List.Forall₂ (fun t result => t.verdict p = .ok result)
      (earlier ++ [last]) results) : last.verdict p ≠ .error err := by
  intro herr
  obtain ⟨-, result, hresult, -⟩ := forall₂_append_cons verdicts
  cases herr.symm.trans hresult

theorem unique (hx : Ending p names turns x) (hy : Ending p names turns y) : x = y := by
  cases hx with
  | complete _ verdicts =>
    cases hy with
    | complete _ verdicts' =>
      have hunique : Relator.RightUnique fun (t : Turn) result => t.verdict p = .ok result :=
        fun _ _ _ h h' => Except.ok.inj (h.symm.trans h')
      exact congrArg Except.ok (hunique.forall₂ verdicts verdicts')
    | cut earlier last turns_eq _ _ verdict =>
      subst turns_eq
      exact absurd verdict (not_cut_of_complete verdicts)
  | cut earlier last turns_eq _ _ verdict =>
    subst turns_eq
    cases hy with
    | complete _ verdicts => exact absurd verdict (not_cut_of_complete verdicts)
    | cut earlier' last' turns_eq' _ _ verdict' =>
      obtain ⟨-, hlast⟩ := List.append_inj' turns_eq' rfl
      cases hlast
      cases verdict.symm.trans verdict'
      rfl

end Ending

/-- An error of the persistence family comes from the store: exchanges fail in other families. -/
theorem handed_of_family {b : Batch σ} {name : String} {r : Run σ} {policy : FailurePolicy}
    {err : Error} (h : (b.turn name r).verdict policy = .error err)
    (hfamily : err.family = .persistence) :
    ∃ call reply cause, (b.turn name r).fate = .handed call reply (.error cause) := by
  have hverdict : (b.fate name r).verdict policy name = .error err := h
  rcases b.fate_cases name r with ⟨flaw, hfate⟩ | ⟨err', hreply, hfate⟩ | ⟨reply, -, hfate⟩
  · rw [hfate] at hverdict
    cases hverdict
    cases hfamily
  · rw [hfate] at hverdict
    cases hverdict
    rcases Service.family_of_judged hreply with htransport | hkind
    · cases hfamily.symm.trans htransport
    · cases hfamily.symm.trans hkind
  · cases hsaving : outcome (save b.persistence (.data reply name)) (b.answered name r) with
    | error cause =>
      rw [hsaving] at hfate
      exact ⟨_, _, cause, hfate⟩
    | ok _ =>
      rw [hfate, hsaving] at hverdict
      cases hverdict

end Batch

end Download

/-! ## The engine under both policies -/

namespace Engine

def withPolicy (e : Engine σ) (policy : FailurePolicy) : Engine σ :=
  { e with policy := policy }

section Policies

variable {e : Engine σ} {id : String} {record : AgreementRecord} {r : Run σ}

theorem downloadArtifacts_eq_of_stored
    (hrecord : outcome (findAgreement e.agreements id) r = .ok record) (recipient : String)
    (names : List String) (p q : FailurePolicy)
    (hstored : ∀ t ∈ (e.batch recipient record.remoteId).turns p names r, ¬ t.FailsToStore) :
    outcome ((e.withPolicy q).downloadArtifacts recipient names id) r =
        outcome ((e.withPolicy p).downloadArtifacts recipient names id) r ∧
      (after ((e.withPolicy q).downloadArtifacts recipient names id) r).traffic =
        (after ((e.withPolicy p).downloadArtifacts recipient names id) r).traffic := by
  have hturns := (e.batch recipient record.remoteId).turns_eq_of_stored p q names r hstored
  constructor
  · have hp := ending_downloadArtifacts (e := e.withPolicy p) hrecord recipient names
    have hq := ending_downloadArtifacts (e := e.withPolicy q) hrecord recipient names
    refine hq.unique ?_
    show Batch.Ending q names ((e.batch recipient record.remoteId).turns q names r) _
    rw [hturns]
    exact hp.of_stored hstored
  · rw [traffic_downloadArtifacts (e := e.withPolicy q) hrecord recipient names,
      traffic_downloadArtifacts (e := e.withPolicy p) hrecord recipient names]
    exact congrArg (fun turns => r.traffic ++ turns.flatMap Turn.traffic) hturns

end Policies

/-- **The policies agree up to the first failure of the store.** From the same point of a run: what
is requested and saved under `abort` comes first under `carryOn`. A download that returns under
`abort` does the same under `carryOn`. One that fails, and not because the store failed in a way of
its own, fails under `carryOn` too, with the same error after the same events. If it fails with an
error of the persistence family, then under `carryOn` the same artifact is saved with the same
failure, and if that download returns, the artifacts before are stored and the error is in the result
of this one. -/
theorem failure_policies_agree (e : Engine σ) (recipient : String) (names : List String)
    {id : String} {record : AgreementRecord} {r : Run σ}
    (hrecord : outcome (findAgreement e.agreements id) r = .ok record) :
    let turns := fun policy => (e.batch recipient record.remoteId).turns policy names r
    let run := fun policy => (e.withPolicy policy).downloadArtifacts recipient names id
    (∀ policy, (after (run policy) r).traffic = r.traffic ++ (turns policy).flatMap Turn.traffic) ∧
    (after (run .abort) r).traffic <+: (after (run .carryOn) r).traffic ∧
    (∀ results, outcome (run .abort) r = .ok results →
      outcome (run .carryOn) r = .ok results ∧
      (after (run .carryOn) r).traffic = (after (run .abort) r).traffic) ∧
    ∀ err, outcome (run .abort) r = .error err →
      ∃ earlier last, turns .abort = earlier ++ [last] ∧
        (¬ last.FailsToStore → outcome (run .carryOn) r = .error err ∧
          (after (run .carryOn) r).traffic = (after (run .abort) r).traffic) ∧
        (err.family = .persistence →
          (∃ call reply cause, last.fate = .handed call reply (.error cause)) ∧
          (∃ later, turns .carryOn = earlier ++ last :: later) ∧
          ∀ results, outcome (run .carryOn) r = .ok results →
            (∀ result ∈ results.take earlier.length, result.failure = none) ∧
            results[earlier.length]? = some ⟨last.artifact, some err⟩) := by
  intro turns run
  have htraffic : ∀ policy,
      (after (run policy) r).traffic = r.traffic ++ (turns policy).flatMap Turn.traffic :=
    fun policy => traffic_downloadArtifacts (e := e.withPolicy policy) hrecord recipient names
  have hending : ∀ policy, Batch.Ending policy names (turns policy) (outcome (run policy) r) :=
    fun policy => ending_downloadArtifacts (e := e.withPolicy policy) hrecord recipient names
  obtain ⟨later, hlater⟩ : turns .abort <+: turns .carryOn :=
    (e.batch recipient record.remoteId).abort_prefix_carryOn names r
  have habort := hending .abort
  refine ⟨htraffic, ?_, fun results hresults => ?_, fun err herr => ?_⟩
  · rw [htraffic, htraffic, ← hlater, List.flatMap_append, ← List.append_assoc]
    exact List.prefix_append _ _
  · rw [hresults] at habort
    obtain ⟨houtcome, hsame⟩ :=
      downloadArtifacts_eq_of_stored hrecord recipient names .abort .carryOn habort.stored_of_abort
    exact ⟨houtcome.trans hresults, hsame⟩
  · rw [herr] at habort
    cases habort with
    | cut earlier last turns_eq artifacts verdicts verdict =>
      have hcarried : turns .carryOn = earlier ++ last :: later := by
        rw [← hlater, turns_eq, List.append_assoc]
        rfl
      refine ⟨earlier, last, turns_eq, fun hlast => ?_, fun hfamily => ⟨?_, ⟨later, hcarried⟩, ?_⟩⟩
      · have hstored : ∀ t ∈ turns .abort, ¬ t.FailsToStore := by
          rw [turns_eq]
          exact Batch.Ending.stored_of_cut verdicts hlast
        obtain ⟨houtcome, hsame⟩ :=
          downloadArtifacts_eq_of_stored hrecord recipient names .abort .carryOn hstored
        exact ⟨houtcome.trans herr, hsame⟩
      · have hturn := (e.batch recipient record.remoteId).turns_eq_turn .abort names turns_eq
        rw [hturn] at verdict ⊢
        exact Batch.handed_of_family verdict hfamily
      · intro results hresults
        have hcarry := hending .carryOn
        rw [hresults, hcarried] at hcarry
        exact hcarry.reported_of_carryOn verdicts verdict

/-- The disk has no room for the second artifact: one download fails with the error that the other
one reports. -/
theorem failure_policies_agree_withServingPeer :
    ∃ (err : Error) (results : List ArtifactResult) (k : Nat) (artifact : String),
      outcome (((withServingPeer (.plain "urn:a") .abort).withPolicy .abort).downloadArtifacts
        "https://peer" ["urn:x", "urn:huge", "urn:y"] "agr") .entitled = .error err ∧
      outcome (((withServingPeer (.plain "urn:a") .abort).withPolicy .carryOn).downloadArtifacts
        "https://peer" ["urn:x", "urn:huge", "urn:y"] "agr") .entitled = .ok results ∧
      results.length = 3 ∧ results[k]? = some ⟨artifact, some err⟩ := by
  have hrecord : outcome (findAgreement (withServingPeer (.plain "urn:a") .abort).agreements "agr")
      .entitled = .ok ⟨"agr", "urn:a", none⟩ := ok_of_toOption (by decide +kernel)
  have habort : outcome
      (((withServingPeer (.plain "urn:a") .abort).withPolicy .abort).downloadArtifacts
        "https://peer" ["urn:x", "urn:huge", "urn:y"] "agr") .entitled =
        .error (Fate.unsaved "urn:huge" diskFull) := by decide +kernel
  have hcarry : outcome
      (((withServingPeer (.plain "urn:a") .abort).withPolicy .carryOn).downloadArtifacts
        "https://peer" ["urn:x", "urn:huge", "urn:y"] "agr") .entitled =
        .ok [ArtifactResult.stored "urn:x",
          ArtifactResult.failed "urn:huge" ((artifactErrand "urn:huge").message diskFull) diskFull,
          ArtifactResult.stored "urn:y"] := ok_of_toOption (by decide +kernel)
  obtain ⟨-, -, -, hfailed⟩ := failure_policies_agree (withServingPeer (.plain "urn:a") .abort)
    "https://peer" ["urn:x", "urn:huge", "urn:y"] hrecord
  obtain ⟨earlier, last, -, -, hreported⟩ := hfailed _ habort
  obtain ⟨-, -, hresults⟩ := hreported rfl
  exact ⟨_, _, _, _, habort, hcarry, rfl, (hresults _ hcarry).2⟩

end Engine

end Dataspace
