import Dataspace.Proofs.ContractDocument

/-!
# The window of an accepted agreement

An agreement may leave bounds of its window away, and so may a request. What the strict examiner
lets pass never allows more than the request on a side on which both have a bound. Two checks in
different places make this so: a contract whose bounds are in the wrong order cannot be read, and
one whose bounds lie outside those of the request is refused.

Both checks go by `Timestamp.isBefore`, which for two points on the clock of one zone is not the
order of the instants. An agreement is read from a document, though, and a document names no zone:
so its bounds are ordered as instants, among themselves and against those of any request.

* **`Timestamp.isBefore_iff`** — where the order of two points is that of their instants.
* **`liesBefore_eq_false_iff`** — what it means that the second check finds nothing.
* **`accepted_of_examine`** — an agreement that passes was read, and no respect was found in which
  it fails.
* **`examine_never_widens_window`** — what follows for the instants of its window.
-/

namespace Dataspace

/-! ## Bounds -/

namespace Timestamp

variable {s t : Timestamp}

/-- Both points stand on the clock of one zone, at different offsets: the clock was put forward or
back between them. -/
def Shifted (s t : Timestamp) : Prop :=
  s.sharesZone t = true ∧ s.offset ≠ t.offset

theorem not_shifted_of_zone_eq_none (h : s.clock.zone? = none) : ¬ s.Shifted t := by
  rintro ⟨hzone, -⟩
  rw [sharesZone, h] at hzone
  cases hzone

theorem Shifted.symm (h : s.Shifted t) : t.Shifted s := by
  obtain ⟨hzone, hoffset⟩ := h
  rw [sharesZone, Bool.and_eq_true, decide_eq_true_iff] at hzone
  refine ⟨?_, hoffset.symm⟩
  rw [sharesZone, ← hzone.2, hzone.1, Bool.true_and, decide_eq_true_iff]

/-- **Points are ordered as their instants are**, unless the clock was put forward or back between
them. -/
theorem isBefore_iff (h : ¬ s.Shifted t) : s.isBefore t = true ↔ s.instant < t.instant := by
  rw [isBefore]
  split
  · rename_i hzone
    -- one zone at one offset: the instants are the readings less the same number
    have hoffset : s.offset = t.offset := Decidable.of_not_not fun hne => h ⟨hzone, hne⟩
    rw [decide_eq_true_iff, instant, instant, hoffset]
    omega
  · rw [decide_eq_true_iff]

theorem isBefore_eq_false_iff (h : ¬ s.Shifted t) :
    s.isBefore t = false ↔ t.instant ≤ s.instant := by
  rw [← Bool.not_eq_true, isBefore_iff h, Int.not_lt]

end Timestamp

section Bounds

variable {a b start finish : Option Timestamp}

/-- A bound that is missing lies before nothing, and nothing lies before it. -/
theorem liesBefore_eq_false_iff :
    liesBefore a b = false ↔ ∀ x, a = some x → ∀ y, b = some y → x.isBefore y = false := by
  cases a with
  | none => exact ⟨fun _ x hx => (nomatch hx), fun _ => rfl⟩
  | some x =>
    cases b with
    | none => exact ⟨fun _ _ _ y hy => (nomatch hy), fun _ => rfl⟩
    | some y =>
      constructor
      · rintro h _ ⟨⟩ _ ⟨⟩
        exact h
      · exact fun h => h x rfl y rfl

/-- A window is in order if its end does not lie before its start. -/
theorem windowOrdered_iff :
    windowOrdered start finish = true ↔
      ∀ s, start = some s → ∀ f, finish = some f → f.isBefore s = false := by
  have hordered : windowOrdered start finish = !liesBefore finish start := by
    cases start <;> cases finish <;> rfl
  rw [hordered, Bool.not_eq_true', liesBefore_eq_false_iff]
  exact ⟨fun h s hs f hf => h f hf s hs, fun h f hf s hs => h s hs f hf⟩

end Bounds

namespace Contract

/-- The contract holds at this instant: a bound that is missing excludes none. -/
def Admits (c : Contract) (t : Int) : Prop :=
  (∀ s, c.start = some s → s.instant ≤ t) ∧ ∀ f, c.finish = some f → t ≤ f.instant

variable {agreement request : Contract}

/-- An agreement without a zone that is not at odds with a request lies within it on every side on
which both have a bound. -/
theorem bounds_of_compare (hread : agreement.InMinutes) (h : agreement.compare request = []) :
    (∀ s, agreement.start = some s → ∀ q, request.start = some q → q.instant ≤ s.instant) ∧
      ∀ f, agreement.finish = some f → ∀ q, request.finish = some q → f.instant ≤ q.instant := by
  have hwindow : windowMismatches agreement request = [] := (List.append_eq_nil_iff.1 h).2
  obtain ⟨hstart, hfinish⟩ := List.append_eq_nil_iff.1 hwindow
  have hearly : liesBefore agreement.start request.start = false := by
    cases hearly : liesBefore agreement.start request.start with
    | false => rfl
    | true => rw [if_pos hearly] at hstart; cases hstart
  have hlate : liesBefore request.finish agreement.finish = false := by
    cases hlate : liesBefore request.finish agreement.finish with
    | false => rfl
    | true => rw [if_pos hlate] at hfinish; cases hfinish
  constructor
  · intro s hs q hq
    have hunshifted := Timestamp.not_shifted_of_zone_eq_none (t := q) (hread.1 s hs).zone_eq_none
    exact (Timestamp.isBefore_eq_false_iff hunshifted).1
      (liesBefore_eq_false_iff.1 hearly s hs q hq)
  · -- at the end the roles of the two contracts are changed
    intro f hf q hq
    have hunshifted := Timestamp.not_shifted_of_zone_eq_none (t := q) (hread.2 f hf).zone_eq_none
    exact (Timestamp.isBefore_eq_false_iff (hunshifted ∘ Timestamp.Shifted.symm)).1
      (liesBefore_eq_false_iff.1 hlate q hq f hf)

/-- The bounds of a contract that can be written are in the order of their instants. -/
theorem InMinutes.instants_ordered {s f : Timestamp} (h : agreement.InMinutes)
    (hs : agreement.start = some s) (hf : agreement.finish = some f) : s.instant ≤ f.instant :=
  have hunshifted := Timestamp.not_shifted_of_zone_eq_none (t := s) (h.2 f hf).zone_eq_none
  (Timestamp.isBefore_eq_false_iff hunshifted).1
    (windowOrdered_iff.1 agreement.ordered s hs f hf)

theorem inMinutes_of_readAgreement {body : Option Received}
    (h : readAgreement body = .ok agreement) : agreement.InMinutes := by
  unfold readAgreement at h
  split at h
  · cases h
  · split at h
    · cases h
    · rename_i payload _
      cases hread : readPayload .agreement payload with
      | error report => rw [hread] at h; cases h
      | ok found =>
        rw [hread] at h
        cases h
        exact inMinutes_of_readPayload hread

end Contract

/-! ## Examination -/

namespace Examiner

variable {body : Option Received} {request agreement : Contract}

theorem accepted_of_examine {x : Examiner} (h : (x.examine body request).1 = .ok agreement) :
    Contract.readAgreement body = .ok agreement ∧ x.compare agreement request = [] := by
  unfold examine at h
  cases hread : Contract.readAgreement body with
  | error flaw => rw [hread] at h; cases h
  | ok found =>
    rw [hread] at h
    cases hcompare : x.compare found request with
    | nil =>
      simp only [hcompare] at h
      cases h
      exact ⟨rfl, hcompare⟩
    | cons text texts =>
      simp only [hcompare] at h
      cases h

/-- **The window is never widened.** Let the strict examiner accept an agreement. If it has both
bounds, they are in order, and the request holds at every instant between them. If it has only one,
every instant on the side that it allows is one that the request's bound of the same kind, where
there is one, allows too. -/
theorem examine_never_widens_window
    (h : (strict.examine body request).1 = .ok agreement) :
    (∀ s f, agreement.start = some s → agreement.finish = some f →
      s.instant ≤ f.instant ∧ ∀ t, s.instant ≤ t → t ≤ f.instant → request.Admits t) ∧
    (∀ s, agreement.start = some s → agreement.finish = none →
      ∀ t, s.instant ≤ t → ∀ q, request.start = some q → ¬ t < q.instant) ∧
    (∀ f, agreement.start = none → agreement.finish = some f →
      ∀ t, t ≤ f.instant → ∀ q, request.finish = some q → ¬ q.instant < t) := by
  obtain ⟨hread, htexts⟩ := accepted_of_examine h
  have hcompare : agreement.compare request = [] := List.map_eq_nil_iff.1 htexts
  have hminutes := Contract.inMinutes_of_readAgreement hread
  obtain ⟨hstart, hfinish⟩ := Contract.bounds_of_compare hminutes hcompare
  refine ⟨fun s f hs hf => ⟨?_, fun t hst htf => ⟨?_, ?_⟩⟩, ?_, ?_⟩
  · exact hminutes.instants_ordered hs hf
  · intro q hq
    exact Int.le_trans (hstart s hs q hq) hst
  · intro q hq
    exact Int.le_trans htf (hfinish f hf q hq)
  · intro s hs _ t hst q hq
    have hbound := hstart s hs q hq
    omega
  · intro f _ hf t htf q hq
    have hbound := hfinish f hf q hq
    omega

/-- Noon in UTC, one hour ahead of it and without an offset: the window is this one instant. -/
theorem examine_never_widens_window_at_noon :
    let day (hour h clock) : Timestamp :=
      ⟨⟨2026, 3, 1, by decide⟩, ⟨hour, 0, 0, 0, h⟩, clock⟩
    let noon := day 12 (by decide) .unknown
    let ahead := day 13 (by decide) (.fixed ⟨3600, by decide⟩)
    let request : Contract := ⟨"urn:r", "urn:c", "urn:p", some ahead, none, [], rfl⟩
    let body := "\x7b\"id\":\"urn:a\",\"consumer\":\"urn:c\",\"provider\":\"urn:p\"," ++
      "\"start\":\"2026-03-01T12:00:00\",\"end\":\"2026-03-01T13:00:00+01:00\"\x7d"
    (strict.examine (some (.text body)) request).1 =
        .ok ⟨"urn:a", "urn:c", "urn:p", some noon, some ahead, [], by decide⟩ ∧
      noon.instant ≤ ahead.instant ∧
      ∀ t, noon.instant ≤ t → t ≤ ahead.instant → request.Admits t := by
  intro day noon ahead request body
  have haccepted : (strict.examine (some (.text body)) request).1 =
      .ok ⟨"urn:a", "urn:c", "urn:p", some noon, some ahead, [], by decide⟩ :=
    ok_of_toOption (by decide +kernel)
  exact ⟨haccepted, (examine_never_widens_window haccepted).1 noon ahead rfl rfl⟩

end Examiner

end Dataspace
