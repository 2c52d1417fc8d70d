import Dataspace.Proofs.RuleSet
import Dataspace.Proofs.UsageWindow

/-!
# What a comparison finds

`Contract.compare` computes its entries. `Mismatch.AppliesBy` says of each possible entry when it
has to be there, in terms of the two contracts alone: of their parties, of what their rules say
(`Rule.SaysSame`), and of their bounds, under a given order of points of time. The comparison agrees
with it under `Timestamp.isBefore`.

An entry ought to be there if it applies by the instants of the bounds, `Mismatch.Applies`. This is
the same for all entries but one about two bounds on the clock of one zone that was put forward or
back between them: such a pair is not `Mismatch.Steady`, and `compare_misses_early_start` is a case
in which the entry is missing.

* **`Mismatch.steady_of_inMinutes`** — an agreement that can be written makes every pair steady.
* **`Contract.unmatched_iff`** — rule sets differ exactly if a rule of one side has no counterpart
  on the other.
* **`Contract.mem_compare`** — the entries are the ones that apply.
* **`Contract.mem_compare_of_steady`** — and by instants, where the pair is steady.
* **`Contract.forall_mem_compare_iff`** — and by instants throughout, exactly if the orders agree.
* **`Contract.pairwise_place`** — they stand in the order parties, rules, bounds, each at most once.
* **`compare_sound_and_complete`** — all of it together, and what it means that there are none.
-/

namespace Dataspace

/-! ## Conditions -/

section Orders

variable {a b : Option Timestamp}

/-- Both bounds are there, and the first is the earlier instant. -/
def Earlier (a b : Option Timestamp) : Prop :=
  ∃ x, a = some x ∧ ∃ y, b = some y ∧ x.instant < y.instant

/-- Both bounds are there, and the first is taken to lie before the second. -/
def Before (a b : Option Timestamp) : Prop :=
  ∃ x, a = some x ∧ ∃ y, b = some y ∧ x.isBefore y = true

/-- Both bounds are there, on the clock of one zone that was put forward or back between them. -/
def Shifted (a b : Option Timestamp) : Prop :=
  ∃ x, a = some x ∧ ∃ y, b = some y ∧ x.Shifted y

theorem liesBefore_iff : liesBefore a b = true ↔ Before a b := by
  rw [← not_iff_not, Bool.not_eq_true, liesBefore_eq_false_iff, Before]
  push Not
  simp only [Bool.not_eq_true]

theorem before_iff_earlier (h : ¬ Shifted a b) : Before a b ↔ Earlier a b := by
  constructor
  · rintro ⟨x, rfl, y, rfl, hbefore⟩
    exact ⟨x, rfl, y, rfl, (Timestamp.isBefore_iff fun hs => h ⟨x, rfl, y, rfl, hs⟩).1 hbefore⟩
  · rintro ⟨x, rfl, y, rfl, hearlier⟩
    exact ⟨x, rfl, y, rfl, (Timestamp.isBefore_iff fun hs => h ⟨x, rfl, y, rfl, hs⟩).2 hearlier⟩

end Orders

namespace Contract

/-- Some rule of the first contract says what no rule of the second says. -/
def SaysMore (c d : Contract) : Prop :=
  ∃ x ∈ c.rules, ∀ y ∈ d.rules, ¬ x.SaysSame y

variable {c d : Contract}

theorem not_saysMore_iff : ¬ c.SaysMore d ↔ c.terms ⊆ d.terms := by
  rw [SaysMore]
  push Not
  constructor
  · intro h t ht
    obtain ⟨x, hx, rfl⟩ := mem_terms.1 ht
    obtain ⟨y, hy, hsame⟩ := h x hx
    exact mem_terms.2 ⟨y, hy, (Rule.terms_eq_iff.2 hsame).symm⟩
  · intro h x hx
    obtain ⟨y, hy, hsame⟩ := mem_terms.1 (h (mem_terms.2 ⟨x, hx, rfl⟩))
    exact ⟨y, hy, Rule.terms_eq_iff.1 hsame.symm⟩

/-- **Rule sets differ exactly if some rule has no counterpart.** -/
theorem unmatched_iff : c.ruleSet ≠ d.ruleSet ↔ c.SaysMore d ∨ d.SaysMore c := by
  rw [← not_iff_not, not_or, not_saysMore_iff, not_saysMore_iff, not_not, ruleSet_eq_iff]
  exact subset_antisymm_iff

end Contract

namespace Mismatch

/-- When an entry has to be there, and with which texts and numbers, if bounds are in this order.
The numbers are those of the requested terms that were not granted and of the granted ones that were
not requested. -/
def AppliesBy (before : Option Timestamp → Option Timestamp → Prop)
    (agreement request : Contract) : Mismatch → Prop
  | consumer requested granted =>
    agreement.consumer ≠ request.consumer ∧
      requested = request.consumer ∧ granted = agreement.consumer
  | provider requested granted =>
    agreement.provider ≠ request.provider ∧
      requested = request.provider ∧ granted = agreement.provider
  | rules missing unexpected =>
    (agreement.SaysMore request ∨ request.SaysMore agreement) ∧
      missing = (request.terms \ agreement.terms).card ∧
      unexpected = (agreement.terms \ request.terms).card
  | earlyStart => before agreement.start request.start
  | lateEnd => before request.finish agreement.finish

/-- When an entry ought to be there: bounds are in the order of their instants. -/
def Applies : Contract → Contract → Mismatch → Prop :=
  AppliesBy Earlier

/-- An entry about bounds has no change of one clock between them. -/
def Steady (agreement request : Contract) : Mismatch → Prop
  | earlyStart => ¬ Shifted agreement.start request.start
  | lateEnd => ¬ Shifted request.finish agreement.finish
  | _ => True

/-- For a steady pair it does not matter in which order the bounds are. -/
theorem Steady.applies_iff {agreement request : Contract} {m : Mismatch}
    (h : m.Steady agreement request) :
    m.Applies agreement request ↔ m.AppliesBy Before agreement request := by
  cases m with
  | earlyStart => exact (before_iff_earlier h).symm
  | lateEnd => exact (before_iff_earlier h).symm
  | _ => rfl

/-- The place of an entry among the others. -/
def place : Mismatch → Nat
  | consumer _ _ => 0
  | provider _ _ => 1
  | rules _ _ => 2
  | earlyStart => 3
  | lateEnd => 4

/-- An agreement that can be written names no zone, and so every pair with it is steady. -/
theorem steady_of_inMinutes {agreement request : Contract} (h : agreement.InMinutes)
    (m : Mismatch) : m.Steady agreement request := by
  cases m with
  | earlyStart =>
    rintro ⟨s, hs, q, -, hshifted⟩
    exact Timestamp.not_shifted_of_zone_eq_none (h.1 s hs).zone_eq_none hshifted
  | lateEnd =>
    rintro ⟨q, -, f, hf, hshifted⟩
    exact Timestamp.not_shifted_of_zone_eq_none (h.2 f hf).zone_eq_none hshifted.symm
  | _ => trivial

end Mismatch

/-! ## Entries -/

namespace Contract

variable {agreement request : Contract} {m : Mismatch}

theorem mem_partyMismatches : m ∈ partyMismatches agreement request ↔
    m.place < 2 ∧ m.AppliesBy Before agreement request := by
  unfold partyMismatches
  split <;> split <;> cases m <;> simp_all [Mismatch.place, Mismatch.AppliesBy]

theorem mem_ruleMismatches : m ∈ ruleMismatches agreement request ↔
    m.place = 2 ∧ m.AppliesBy Before agreement request := by
  rw [ruleMismatches, length_lacking_ruleSet, length_lacking_ruleSet]
  cases m with
  | rules missing unexpected =>
    rw [Mismatch.AppliesBy, ← unmatched_iff]
    split
    · rename_i heq
      simp [heq]
    · rename_i hne
      simp [hne, Mismatch.place]
  | _ => split <;> simp [Mismatch.place]

theorem mem_windowMismatches : m ∈ windowMismatches agreement request ↔
    2 < m.place ∧ m.AppliesBy Before agreement request := by
  rw [windowMismatches]
  cases m with
  | earlyStart =>
    rw [Mismatch.AppliesBy, ← liesBefore_iff]
    split <;> split <;> simp_all [Mismatch.place]
  | lateEnd =>
    rw [Mismatch.AppliesBy, ← liesBefore_iff]
    split <;> split <;> simp_all [Mismatch.place]
  | _ => split <;> split <;> simp [Mismatch.place]

/-- **The entries are the ones that apply.** -/
theorem mem_compare : m ∈ agreement.compare request ↔ m.AppliesBy Before agreement request := by
  rw [compare, List.mem_append, List.mem_append, mem_partyMismatches, mem_ruleMismatches,
    mem_windowMismatches, ← or_and_right, ← or_and_right]
  exact and_iff_right (by omega)

/-- **By instants they are the ones that apply, where the pair is steady.** -/
theorem mem_compare_of_steady (h : m.Steady agreement request) :
    m ∈ agreement.compare request ↔ m.Applies agreement request :=
  mem_compare.trans h.applies_iff.symm

/-- **Each entry stands behind those of lower places**, so that none stands twice. -/
theorem pairwise_place :
    (agreement.compare request).Pairwise fun m n => m.place < n.place := by
  have hparties : (partyMismatches agreement request).Pairwise fun m n => m.place < n.place := by
    unfold partyMismatches
    split <;> split <;> simp [Mismatch.place]
  have hrules : (ruleMismatches agreement request).Pairwise fun m n => m.place < n.place := by
    unfold ruleMismatches
    split <;> simp
  have hwindow : (windowMismatches agreement request).Pairwise fun m n => m.place < n.place := by
    unfold windowMismatches
    split <;> split <;> simp [Mismatch.place]
  rw [compare, List.append_assoc]
  refine List.pairwise_append.2 ⟨hparties, List.pairwise_append.2 ⟨hrules, hwindow, ?_⟩, ?_⟩
  · intro m hm n hn
    have hplace := (mem_ruleMismatches.1 hm).1
    have hlater := (mem_windowMismatches.1 hn).1
    omega
  · intro m hm n hn
    have hplace := (mem_partyMismatches.1 hm).1
    rcases List.mem_append.1 hn with hn | hn
    · have hlater := (mem_ruleMismatches.1 hn).1
      omega
    · have hlater := (mem_windowMismatches.1 hn).1
      omega

/-- No entry applies exactly if the parties are the same, every rule of one side has a counterpart
on the other, and no bound of the agreement lies outside the request's. -/
theorem forall_not_appliesBy_iff {before : Option Timestamp → Option Timestamp → Prop} :
    (∀ m : Mismatch, ¬ m.AppliesBy before agreement request) ↔
      agreement.consumer = request.consumer ∧ agreement.provider = request.provider ∧
        ¬ (agreement.SaysMore request ∨ request.SaysMore agreement) ∧
        ¬ before agreement.start request.start ∧ ¬ before request.finish agreement.finish := by
  constructor
  · intro h
    refine ⟨?_, ?_, ?_, h .earlyStart, h .lateEnd⟩
    · by_contra hne
      exact h (.consumer _ _) ⟨hne, rfl, rfl⟩
    · by_contra hne
      exact h (.provider _ _) ⟨hne, rfl, rfl⟩
    · exact fun hmore => h (.rules _ _) ⟨hmore, rfl, rfl⟩
  · rintro ⟨hconsumer, hprovider, hrules, hstart, hfinish⟩ m hm
    cases m with
    | consumer requested granted => exact hm.1 hconsumer
    | provider requested granted => exact hm.1 hprovider
    | rules missing unexpected => exact hrules hm.1
    | earlyStart => exact hstart hm
    | lateEnd => exact hfinish hm

/-- **The comparison is the one by instants** exactly if the order of bounds that it takes is. -/
theorem forall_mem_compare_iff :
    (∀ m, m ∈ agreement.compare request ↔ m.Applies agreement request) ↔
      (Before agreement.start request.start ↔ Earlier agreement.start request.start) ∧
        (Before request.finish agreement.finish ↔ Earlier request.finish agreement.finish) := by
  simp only [mem_compare]
  constructor
  · exact fun h => ⟨h .earlyStart, h .lateEnd⟩
  · rintro ⟨hstart, hfinish⟩ m
    cases m with
    | earlyStart => exact hstart
    | lateEnd => exact hfinish
    | _ => rfl

end Contract

namespace Examiner

/-- **A comparison is sound and complete**, up to what it takes for the order of bounds. An entry
stands in it exactly if it applies by that order. The entries are the ones that apply by the
instants of the bounds exactly if the two orders agree on both pairs; and an entry is, unless it is
about two bounds on the clock of one zone that was put forward or back between them. The entries
stand in the order of their places: consumer, provider, rules, start, end. What the strict examiner
gives are their texts. It gives none exactly if the parties are the same, every rule of one side has
a counterpart on the other, and no bound of the agreement lies outside the request's: in that order
of bounds, and, where there is no such change of a clock, by their instants. -/
theorem compare_sound_and_complete (agreement request : Contract) :
    (∀ m, m ∈ agreement.compare request ↔ m.AppliesBy Before agreement request) ∧
      ((∀ m, m ∈ agreement.compare request ↔ m.Applies agreement request) ↔
        (Before agreement.start request.start ↔ Earlier agreement.start request.start) ∧
          (Before request.finish agreement.finish ↔
            Earlier request.finish agreement.finish)) ∧
      (∀ m, m.Steady agreement request →
        (m ∈ agreement.compare request ↔ m.Applies agreement request)) ∧
      ((agreement.compare request).Pairwise fun m n => m.place < n.place) ∧
      strict.compare agreement request = (agreement.compare request).map Mismatch.text ∧
      (strict.compare agreement request = [] ↔
        agreement.consumer = request.consumer ∧ agreement.provider = request.provider ∧
          ¬ (agreement.SaysMore request ∨ request.SaysMore agreement) ∧
          ¬ Before agreement.start request.start ∧
          ¬ Before request.finish agreement.finish) ∧
      ((∀ m : Mismatch, m.Steady agreement request) →
        (strict.compare agreement request = [] ↔
          agreement.consumer = request.consumer ∧ agreement.provider = request.provider ∧
            ¬ (agreement.SaysMore request ∨ request.SaysMore agreement) ∧
            ¬ Earlier agreement.start request.start ∧
            ¬ Earlier request.finish agreement.finish)) := by
  have hnone : strict.compare agreement request = [] ↔
      ∀ m : Mismatch, m ∉ agreement.compare request := by
    rw [strict, List.map_eq_nil_iff, List.eq_nil_iff_forall_not_mem]
  refine ⟨fun m => Contract.mem_compare, Contract.forall_mem_compare_iff,
    fun m => Contract.mem_compare_of_steady, Contract.pairwise_place, rfl, ?_, fun hsteady => ?_⟩
  · rw [hnone, ← Contract.forall_not_appliesBy_iff]
    exact forall_congr' fun m => not_congr Contract.mem_compare
  · rw [hnone, ← Contract.forall_not_appliesBy_iff]
    exact forall_congr' fun m => not_congr (Contract.mem_compare_of_steady (hsteady m))

/-- Half past two on a summer morning, with the agreement a quarter of an hour earlier: both bounds
are on one clock, which was not touched between them. -/
theorem compare_sound_and_complete_inSummer :
    let berlin (minute h) : Timestamp :=
      ⟨⟨2024, 7, 27, by decide⟩, ⟨2, minute, 0, 0, h⟩, .zone "Europe/Berlin" ⟨7200, by decide⟩⟩
    let contract (id start) : Contract := ⟨id, "urn:c", "urn:p", some start, none, [], rfl⟩
    let agreement := contract "urn:a" (berlin 15 (by decide))
    let request := contract "urn:r" (berlin 30 (by decide))
    (∀ m : Mismatch, m.Steady agreement request) ∧
      Mismatch.earlyStart ∈ agreement.compare request ∧
      strict.compare agreement request ≠ [] := by
  intro berlin contract agreement request
  have hsteady : ∀ m : Mismatch, m.Steady agreement request := by
    intro m
    cases m with
    | earlyStart =>
      rintro ⟨_, ⟨⟩, _, ⟨⟩, -, hoffset⟩
      exact hoffset rfl
    | lateEnd =>
      rintro ⟨_, hnone, -⟩
      cases hnone
    | _ => trivial
  have hearlier : Earlier agreement.start request.start := ⟨_, rfl, _, rfl, by decide +kernel⟩
  obtain ⟨-, -, hmem, -, -, -, hempty⟩ := compare_sound_and_complete agreement request
  exact ⟨hsteady, (hmem .earlyStart (hsteady _)).2 hearlier, fun hnil =>
    ((hempty hsteady).1 hnil).2.2.2.1 hearlier⟩

/-- On the morning on which the clock is put back from three to two, a quarter to three is first a
point of summer time, and half past two after that one of winter time. An agreement that starts at
the one is not found to start before a request that starts at the other. -/
theorem compare_misses_early_start :
    let berlin (minute h offset) : Timestamp :=
      ⟨⟨2024, 10, 27, by decide⟩, ⟨2, minute, 0, 0, h⟩, .zone "Europe/Berlin" offset⟩
    let contract (id start) : Contract := ⟨id, "urn:c", "urn:p", some start, none, [], rfl⟩
    let agreement := contract "urn:a" (berlin 45 (by decide) ⟨7200, by decide⟩)
    let request := contract "urn:r" (berlin 30 (by decide) ⟨3600, by decide⟩)
    Mismatch.earlyStart.Applies agreement request ∧ agreement.compare request = [] ∧
      ¬ ∀ m, m ∈ agreement.compare request ↔ m.Applies agreement request := by
  intro berlin contract agreement request
  have happlies : Mismatch.earlyStart.Applies agreement request :=
    ⟨_, rfl, _, rfl, by decide +kernel⟩
  have hnone : agreement.compare request = [] := by decide +kernel
  refine ⟨happlies, hnone, fun h => ?_⟩
  have hmem := (h .earlyStart).2 happlies
  rw [hnone] at hmem
  cases hmem

end Examiner

end Dataspace
