import Dataspace.Proofs.Mismatches

/-!
# Contracts in other words

A contract can be put in other words without saying anything else: with other identifiers, with its
rules and their constraints in another order or given more than once, and with its bounds read off
clocks with another offset. `Contract.Reworded` is one such change and `Contract.Restated` any
combination of them, back and forth. An entry of a comparison sees none of it where the pair is
steady (`Mismatch.Steady`); where it is not, a bound on another clock may change what is found, as
`compare_of_restated_acrossShift` shows.

* **`Contract.SameMeaning`** — what ought to matter of a contract in a comparison.
* **`Contract.Reworded.sameMeaning`** — what one change keeps.
* **`Contract.Restated.sameMeaning`** — what all of them keep, by induction on the changes.
* **`Contract.SameMeaning.appliesBy_iff`** — an entry depends on no more, but for the order of
  bounds.
* **`Contract.SameMeaning.compare_eq_iff`** — when two comparisons of the same meaning are the same.
* **`compare_of_restated`** — so that a comparison gives the same entries, with the same texts.
-/

namespace Dataspace

/-! ## Changes of wording -/

/-- A rule with another identifier, or with its constraints in another order, or with one of them
once more. -/
inductive Rule.Reworded : Rule → Rule → Prop
  | renamed (x : Rule) (id : Option String) : Reworded x { x with id := id }
  | reordered {x : Rule} {constraints : List String} (h : x.constraints.Perm constraints) :
    Reworded x { x with constraints := constraints }
  | repeated {x : Rule} {s : String} (h : s ∈ x.constraints) :
    Reworded x { x with constraints := s :: x.constraints }

theorem Rule.Reworded.terms_eq {x y : Rule} (h : x.Reworded y) : x.terms = y.terms := by
  rw [Rule.terms_eq_iff]
  cases h with
  | renamed id => exact ⟨rfl, rfl, rfl, fun _ => Iff.rfl⟩
  | reordered hperm => exact ⟨rfl, rfl, rfl, fun _ => hperm.mem_iff⟩
  | repeated hs =>
    refine ⟨rfl, rfl, rfl, fun t => ?_⟩
    rw [List.mem_cons]
    exact (or_iff_right_of_imp fun ht => ht ▸ hs).symm

namespace Contract

/-- A contract with another identifier, or with its rules in another order, or with one of them once
more or in other words, or with its bounds at the same instants on other clocks, a clock without an
offset being in UTC. -/
inductive Reworded : Contract → Contract → Prop
  | renamed (c : Contract) (id : String) : Reworded c { c with id := id }
  | reordered {c : Contract} {rules : List Rule} (h : c.rules.Perm rules) :
    Reworded c { c with rules := rules }
  | repeated {c : Contract} {x : Rule} (h : x ∈ c.rules) :
    Reworded c { c with rules := x :: c.rules }
  | reworded {c : Contract} {x y : Rule} (before after : List Rule)
    (h : c.rules = before ++ x :: after) (hxy : x.Reworded y) :
    Reworded c { c with rules := before ++ y :: after }
  | redated {c : Contract} {start finish : Option Timestamp}
    (hstart : c.start.map Timestamp.instant = start.map Timestamp.instant)
    (hfinish : c.finish.map Timestamp.instant = finish.map Timestamp.instant)
    (ordered : windowOrdered start finish = true) :
    Reworded c { c with start := start, finish := finish, ordered := ordered }

/-- A contract after any combination of such changes, back and forth. -/
def Restated : Contract → Contract → Prop :=
  Relation.EqvGen Reworded

/-! ## What stays -/

/-- What ought to matter of a contract in a comparison: the parties, what the rules say, and the
instants of the bounds. -/
structure SameMeaning (c d : Contract) : Prop where
  consumer : c.consumer = d.consumer
  provider : c.provider = d.provider
  terms : c.terms = d.terms
  start : c.start.map Timestamp.instant = d.start.map Timestamp.instant
  finish : c.finish.map Timestamp.instant = d.finish.map Timestamp.instant

namespace SameMeaning

variable {c d e : Contract}

theorem refl (c : Contract) : SameMeaning c c :=
  ⟨rfl, rfl, rfl, rfl, rfl⟩

theorem symm (h : SameMeaning c d) : SameMeaning d c :=
  ⟨h.consumer.symm, h.provider.symm, h.terms.symm, h.start.symm, h.finish.symm⟩

theorem trans (h : SameMeaning c d) (h' : SameMeaning d e) : SameMeaning c e :=
  ⟨h.consumer.trans h'.consumer, h.provider.trans h'.provider, h.terms.trans h'.terms,
    h.start.trans h'.start, h.finish.trans h'.finish⟩

/-- Other rules mean the same if they have the same terms. -/
theorem of_rules {rules : List Rule}
    (h : (c.rules.map Rule.terms).toFinset = (rules.map Rule.terms).toFinset) :
    SameMeaning c { c with rules := rules } :=
  ⟨rfl, rfl, h, rfl, rfl⟩

end SameMeaning

variable {c d : Contract}

theorem Reworded.sameMeaning (h : Reworded c d) : SameMeaning c d := by
  cases h with
  | renamed id => exact ⟨rfl, rfl, rfl, rfl, rfl⟩
  | reordered hperm => exact .of_rules (List.toFinset_eq_of_perm _ _ (hperm.map _))
  | repeated hx =>
    refine .of_rules ?_
    rw [List.map_cons, List.toFinset_cons, Finset.insert_eq_self.2]
    exact mem_terms.2 ⟨_, hx, rfl⟩
  | reworded before after hrules hxy =>
    refine .of_rules ?_
    rw [hrules, List.map_append, List.map_append, List.map_cons, List.map_cons, hxy.terms_eq]
  | redated hstart hfinish => exact ⟨rfl, rfl, rfl, hstart, hfinish⟩

/-- **What every change keeps, all of them keep.** -/
theorem Restated.sameMeaning (h : Restated c d) : SameMeaning c d := by
  induction h with
  | rel _ _ h => exact h.sameMeaning
  | refl c => exact .refl c
  | symm _ _ _ ih => exact ih.symm
  | trans _ _ _ _ _ ih ih' => exact ih.trans ih'

/-! ## Entries -/

/-- Which of two bounds is the earlier one is a matter of their instants. -/
theorem earlier_congr {a a' b b' : Option Timestamp}
    (ha : a.map Timestamp.instant = a'.map Timestamp.instant)
    (hb : b.map Timestamp.instant = b'.map Timestamp.instant) : Earlier a b ↔ Earlier a' b' := by
  have hmap : ∀ x y : Option Timestamp, Earlier x y ↔ ∃ s, x.map Timestamp.instant = some s ∧
      ∃ t, y.map Timestamp.instant = some t ∧ s < t := by
    intro x y
    simp only [Earlier, Option.map_eq_some_iff, exists_exists_and_eq_and]
  rw [hmap, hmap, ha, hb]

/-- **Whether an entry applies is a matter of the meaning**, and of the order of bounds. -/
theorem SameMeaning.appliesBy_iff {before : Option Timestamp → Option Timestamp → Prop}
    {agreement agreement' request request' : Contract} (ha : SameMeaning agreement agreement')
    (hr : SameMeaning request request')
    (hstart : before agreement.start request.start ↔ before agreement'.start request'.start)
    (hfinish : before request.finish agreement.finish ↔ before request'.finish agreement'.finish)
    (m : Mismatch) :
    m.AppliesBy before agreement request ↔ m.AppliesBy before agreement' request' := by
  cases m with
  | consumer requested granted => rw [Mismatch.AppliesBy, ha.consumer, hr.consumer]; rfl
  | provider requested granted => rw [Mismatch.AppliesBy, ha.provider, hr.provider]; rfl
  | rules missing unexpected =>
    have hmore : ∀ {c c' d d' : Contract}, SameMeaning c c' → SameMeaning d d' →
        (c.SaysMore d ↔ c'.SaysMore d') := by
      intro c c' d d' hc hd
      rw [← not_iff_not, not_saysMore_iff, not_saysMore_iff, hc.terms, hd.terms]
    rw [Mismatch.AppliesBy, hmore ha hr, hmore hr ha, ha.terms, hr.terms]
    rfl
  | earlyStart => exact hstart
  | lateEnd => exact hfinish

/-- An entry that ought to be there is one of the meaning alone. -/
theorem SameMeaning.applies_iff {agreement agreement' request request' : Contract}
    (ha : SameMeaning agreement agreement') (hr : SameMeaning request request') (m : Mismatch) :
    m.Applies agreement request ↔ m.Applies agreement' request' :=
  ha.appliesBy_iff hr (earlier_congr ha.start hr.start) (earlier_congr hr.finish ha.finish) m

end Contract

/-- Entries in the order of their places are given by which ones they are. -/
theorem Mismatch.eq_of_mem_iff {ms ns : List Mismatch}
    (hms : ms.Pairwise fun m n => m.place < n.place)
    (hns : ns.Pairwise fun m n => m.place < n.place) (h : ∀ m, m ∈ ms ↔ m ∈ ns) : ms = ns := by
  have : Std.Irrefl fun m n : Mismatch => m.place < n.place := ⟨fun _ => lt_irrefl _⟩
  have : Std.Antisymm fun m n : Mismatch => m.place < n.place :=
    ⟨fun _ _ hlt hgt => absurd hgt hlt.asymm⟩
  exact hms.eq_of_mem_iff hns h

/-- **Two comparisons of the same meaning are the same list** exactly if they take both pairs of
bounds to be in the same order. -/
theorem Contract.SameMeaning.compare_eq_iff {agreement agreement' request request' : Contract}
    (ha : SameMeaning agreement agreement') (hr : SameMeaning request request') :
    agreement'.compare request' = agreement.compare request ↔
      (Before agreement'.start request'.start ↔ Before agreement.start request.start) ∧
        (Before request'.finish agreement'.finish ↔ Before request.finish agreement.finish) := by
  constructor
  · intro h
    have hentry : ∀ m : Mismatch, m.AppliesBy Before agreement' request' ↔
        m.AppliesBy Before agreement request := by
      intro m
      rw [← mem_compare, ← mem_compare, h]
    exact ⟨hentry .earlyStart, hentry .lateEnd⟩
  · rintro ⟨hstart, hfinish⟩
    refine Mismatch.eq_of_mem_iff pairwise_place pairwise_place fun m => ?_
    rw [mem_compare, mem_compare]
    exact ha.symm.appliesBy_iff hr.symm hstart hfinish m

namespace Examiner

open Contract (Restated Reworded)

/-- **A comparison ignores all but the content**, where bounds are in the order of their instants.
However an agreement and a request are put in other words, the comparison is the same list exactly
if it takes both pairs of bounds to be in the same order as before. Each entry stands in the
comparison of the one pair exactly if it stands in that of the other, and so the lists and their
texts are the same, unless two bounds are on the clock of one zone that was put forward or back
between them, in the one pair or in the other. -/
theorem compare_of_restated {agreement agreement' request request' : Contract}
    (ha : Restated agreement agreement') (hr : Restated request request') :
    (agreement'.compare request' = agreement.compare request ↔
      (Before agreement'.start request'.start ↔ Before agreement.start request.start) ∧
        (Before request'.finish agreement'.finish ↔ Before request.finish agreement.finish)) ∧
    (∀ m : Mismatch, m.Steady agreement request → m.Steady agreement' request' →
      (m ∈ agreement'.compare request' ↔ m ∈ agreement.compare request)) ∧
    ((∀ m : Mismatch, m.Steady agreement request) →
      (∀ m : Mismatch, m.Steady agreement' request') →
      agreement'.compare request' = agreement.compare request ∧
        strict.compare agreement' request' = strict.compare agreement request) := by
  have hentry : ∀ m : Mismatch, m.Steady agreement request → m.Steady agreement' request' →
      (m ∈ agreement'.compare request' ↔ m ∈ agreement.compare request) := by
    intro m hsteady hsteady'
    rw [Contract.mem_compare_of_steady hsteady, Contract.mem_compare_of_steady hsteady',
      ha.sameMeaning.applies_iff hr.sameMeaning]
  refine ⟨ha.sameMeaning.compare_eq_iff hr.sameMeaning, hentry, fun hsteady hsteady' => ?_⟩
  have hcompare : agreement'.compare request' = agreement.compare request :=
    Mismatch.eq_of_mem_iff Contract.pairwise_place Contract.pairwise_place fun m =>
      hentry m (hsteady m) (hsteady' m)
  exact ⟨hcompare, congrArg (List.map Mismatch.text) hcompare⟩

/-- An agreement with a new identifier, on a clock one hour ahead of UTC, with its rules the other
way round and one of them repeated, without an identifier and with a constraint given twice. -/
theorem compare_of_restated_onOtherClock :
    let day (hour h clock) : Timestamp :=
      ⟨⟨2026, 3, 1, by decide⟩, ⟨hour, 0, 0, 0, h⟩, clock⟩
    let noon := day 12 (by decide) .unknown
    let ahead := day 13 (by decide) (.fixed ⟨3600, by decide⟩)
    let use (id constraints) : Rule := ⟨id, .permission, "USE", none, constraints⟩
    let keep : Rule := ⟨none, .prohibition, "KEEP", some "", []⟩
    let contract (id start rules) : Contract :=
      ⟨id, "urn:c", "urn:p", some start, none, rules, rfl⟩
    let agreement := contract "urn:a" noon [use (some "urn:1") ["a", "b"], keep]
    let agreement' := contract "urn:b" ahead [keep, keep, use none ["b", "a", "b"]]
    let request := contract "urn:r" (day 14 (by decide) .unknown) [use none ["a"], keep]
    Restated agreement agreement' ∧ Restated request request ∧
      agreement'.compare request = agreement.compare request ∧
      strict.compare agreement' request = strict.compare agreement request ∧
      strict.compare agreement request =
        ["rules differ (1 missing, 1 unexpected)", "agreement starts before requested start"] := by
  intro day noon ahead use keep contract agreement agreement' request
  have hid : Reworded agreement (contract "urn:b" noon [use (some "urn:1") ["a", "b"], keep]) :=
    .renamed _ "urn:b"
  have hstart : Reworded (contract "urn:b" noon [use (some "urn:1") ["a", "b"], keep])
      (contract "urn:b" ahead [use (some "urn:1") ["a", "b"], keep]) :=
    .redated (by decide +kernel) rfl rfl
  have hrule : Reworded (contract "urn:b" ahead [use (some "urn:1") ["a", "b"], keep])
      (contract "urn:b" ahead [use none ["a", "b"], keep]) :=
    .reworded [] _ rfl (.renamed _ none)
  have hconstraints : Reworded (contract "urn:b" ahead [use none ["a", "b"], keep])
      (contract "urn:b" ahead [use none ["b", "a", "b"], keep]) :=
    .reworded [] _ rfl (.repeated (List.mem_cons_of_mem _ List.mem_cons_self))
  have horder : Reworded (contract "urn:b" ahead [use none ["b", "a", "b"], keep])
      (contract "urn:b" ahead [keep, use none ["b", "a", "b"]]) :=
    .reordered (.swap _ _ _)
  have hagain : Reworded (contract "urn:b" ahead [keep, use none ["b", "a", "b"]]) agreement' :=
    .repeated List.mem_cons_self
  have hagreement : Restated agreement agreement' :=
    .trans _ _ _ (.rel _ _ hid) <| .trans _ _ _ (.rel _ _ hstart) <|
      .trans _ _ _ (.rel _ _ hrule) <| .trans _ _ _ (.rel _ _ hconstraints) <|
        .trans _ _ _ (.rel _ _ horder) (.rel _ _ hagain)
  have hrequest : Restated request request := .refl _
  have hnoon : agreement.InMinutes :=
    ⟨by rintro _ ⟨⟩; exact ⟨none, rfl, nofun⟩, by rintro _ ⟨⟩⟩
  have hahead : agreement'.InMinutes :=
    ⟨by rintro _ ⟨⟩; exact ⟨some _, rfl, by rintro _ ⟨⟩; rfl⟩, by rintro _ ⟨⟩⟩
  obtain ⟨hentries, htexts⟩ := (compare_of_restated hagreement hrequest).2.2
    (Mismatch.steady_of_inMinutes hnoon) (Mismatch.steady_of_inMinutes hahead)
  exact ⟨hagreement, hrequest, hentries, htexts, by decide +kernel⟩

/-- The clock of a zone is put back from three to two. The agreement starts at a quarter to three
before that, and the request at half past two after that. Let the request be put in other words,
with its start on a clock in UTC: then the agreement is found to start too early, which it was not
found to do before. -/
theorem compare_of_restated_acrossShift :
    let berlin (minute h offset) : Timestamp :=
      ⟨⟨2024, 10, 27, by decide⟩, ⟨2, minute, 0, 0, h⟩, .zone "Europe/Berlin" offset⟩
    let winter := berlin 30 (by decide) ⟨3600, by decide⟩
    let utc : Timestamp := ⟨⟨2024, 10, 27, by decide⟩, ⟨1, 30, 0, 0, by decide⟩, .fixed .utc⟩
    let contract (id start) : Contract := ⟨id, "urn:c", "urn:p", some start, none, [], rfl⟩
    let agreement := contract "urn:a" (berlin 45 (by decide) ⟨7200, by decide⟩)
    let request := contract "urn:r" winter
    let request' := contract "urn:r" utc
    Restated agreement agreement ∧ Restated request request' ∧
      agreement.compare request = [] ∧ agreement.compare request' = [.earlyStart] ∧
      ¬ ∀ agreement agreement' request request' : Contract, Restated agreement agreement' →
        Restated request request' → agreement'.compare request' = agreement.compare request := by
  intro berlin winter utc contract agreement request request'
  have hagreement : Restated agreement agreement := .refl _
  have hrequest : Restated request request' := .rel _ _ (.redated (by decide +kernel) rfl rfl)
  have hbefore : agreement.compare request = [] := by decide +kernel
  have hafter : agreement.compare request' = [.earlyStart] := by decide +kernel
  refine ⟨hagreement, hrequest, hbefore, hafter, fun h => ?_⟩
  have heq := h _ _ _ _ hagreement hrequest
  rw [hbefore, hafter] at heq
  cases heq

end Examiner

end Dataspace
