/-!
# Results and runs of elements

Three things that every reader is made of, whatever it reads: a result that may be an error, a run
of elements with something else behind it, and an input that may break off.

* **`ok_of_toOption`**, **`forall_mem_of_all`** — how closed facts are computed.
* **`takeWhile_append_stop`**, **`dropWhile_append_stop`** — where a run ends.
* **`prefix_append_cases`** — where an input of two pieces breaks off.
-/

namespace Dataspace

/-! ## Results -/

/-- A result that is there as an option is there. -/
theorem ok_of_toOption {ε α : Type} {result : Except ε α} {x : α} (h : result.toOption = some x) :
    result = .ok x := by
  cases result with
  | error e => cases h
  | ok y => exact congrArg Except.ok (Option.some.inj h)

/-- A result that was mapped was there before. -/
theorem map_eq_ok {ε α β : Type} {result : Except ε α} {g : α → β} {y : β}
    (h : result.map g = .ok y) : ∃ x, result = .ok x ∧ g x = y := by
  cases result with
  | error e => cases h
  | ok x => exact ⟨x, rfl, Except.ok.inj h⟩

theorem map_eq_error {ε α β : Type} {result : Except ε α} {g : α → β} {e : ε}
    (h : result.map g = .error e) : result = .error e := by
  cases result with
  | error e' => exact congrArg Except.error (Except.error.inj h)
  | ok x => cases h

/-- A result that is there does not depend on how errors are told. -/
theorem mapError_eq_ok {ε δ α : Type} {result : Except ε α} {f : ε → δ} {x : α} :
    result.mapError f = .ok x ↔ result = .ok x := by
  cases result with
  | error e => exact ⟨nofun, nofun⟩
  | ok y =>
    constructor
    · exact fun h => congrArg Except.ok (Except.ok.inj h)
    · rintro ⟨⟩
      rfl

/-- A result that is there can be mapped. -/
theorem exists_map_eq_ok {ε α β : Type} {result : Except ε α} (h : ∃ x, result = .ok x)
    (g : α → β) : ∃ y, result.map g = .ok y := by
  obtain ⟨x, rfl⟩ := h
  exact ⟨g x, rfl⟩

/-- Results for all members make a result for the list. -/
theorem exists_mapM_eq_ok {ε α β : Type} {f : α → Except ε β} {p : β → Prop} {xs : List α}
    (h : ∀ x ∈ xs, ∃ y, f x = .ok y ∧ p y) : ∃ ys, xs.mapM f = .ok ys ∧ ∀ y ∈ ys, p y := by
  induction xs with
  | nil => exact ⟨[], rfl, fun y hy => nomatch hy⟩
  | cons x xs ih =>
    obtain ⟨y, hy, hp⟩ := h x List.mem_cons_self
    obtain ⟨ys, hys, hps⟩ := ih fun z hz => h z (List.mem_cons_of_mem _ hz)
    refine ⟨y :: ys, ?_, List.forall_mem_cons.2 ⟨hp, hps⟩⟩
    rw [List.mapM_cons, hy]
    simp only [bind, Except.bind, hys]
    rfl

/-- What holds of all members of a closed list is computed along the list. -/
theorem forall_mem_of_all {α : Type} {p : α → Prop} [DecidablePred p] {xs : List α}
    (h : xs.all (fun x => decide (p x)) = true) : ∀ x ∈ xs, p x :=
  fun x hx => of_decide_eq_true (List.all_eq_true.1 h x hx)

/-! ## Runs -/

section Runs

variable {α : Type} {p : α → Bool} {xs ys : List α}

/-- A run of elements in front of something else. -/
theorem takeWhile_append_stop (hxs : ∀ x ∈ xs, p x = true) (hys : ys.head?.any p = false) :
    (xs ++ ys).takeWhile p = xs := by
  rw [List.takeWhile_append_of_pos hxs]
  cases ys with
  | nil => exact List.append_nil xs
  | cons y r =>
    rw [List.head?_cons, Option.any_some] at hys
    rw [List.takeWhile_cons, hys]
    exact List.append_nil xs

theorem dropWhile_append_stop (hxs : ∀ x ∈ xs, p x = true) (hys : ys.head?.any p = false) :
    (xs ++ ys).dropWhile p = ys := by
  rw [List.dropWhile_append_of_pos hxs]
  cases ys with
  | nil => rfl
  | cons y r =>
    rw [List.head?_cons, Option.any_some] at hys
    rw [List.dropWhile_cons, hys]
    rfl

end Runs

/-! ## Fragments -/

/-- What breaks off within two texts, one after the other, breaks off within the first, or holds it
and breaks off within the second. -/
theorem prefix_append_cases {α : Type} {t a b : List α} (h : t <+: a ++ b) :
    t <+: a ∧ t ≠ a ∨ ∃ r, t = a ++ r ∧ r <+: b := by
  rcases List.prefix_or_prefix_of_prefix h (List.prefix_append a b) with hta | ⟨r, rfl⟩
  · by_cases heq : t = a
    · exact .inr ⟨[], by rw [heq, List.append_nil], List.nil_prefix⟩
    · exact .inl ⟨hta, heq⟩
  · exact .inr ⟨r, rfl, (List.prefix_append_right_inj a).1 h⟩

/-- What breaks off within a text lacks at least its last element. -/
theorem prefix_of_prefix_concat {α : Type} {t xs : List α} {x : α} (h : t <+: xs ++ [x])
    (hne : t ≠ xs ++ [x]) : t <+: xs :=
  (List.prefix_concat_iff.1 h).resolve_left hne

end Dataspace
