import Dataspace.Proofs.Basic
import Dataspace.Text.Blank
import Mathlib.Data.List.DropRight

/-!
# Pieces and their ends

Lists, types and words are taken apart at a sign, and what is found between two signs is stripped of
the blanks at its ends. Neither changes what it leaves: no piece holds the sign, and a piece is what
is left of it with blanks around.

* **`splitOn_eq`** — the pieces are those of the library.
* **`stripBy_surrounded`**, **`exists_surrounded`** — what is stripped and what is left.
-/

namespace Dataspace.Text

/-! ## Pieces -/

section Pieces

variable {α : Type} [DecidableEq α] {sep : α} {s piece front back : List α}

theorem splitOn_eq (sep : α) (s : List α) : splitOn sep s = s.splitOn sep := by
  induction s with
  | nil => rfl
  | cons c r ih =>
    rw [splitOn, ih, List.splitOn_cons_eq_if_modifyHead]
    cases hr : r.splitOn sep with
    | nil => exact absurd hr (List.splitOn_ne_nil sep r)
    | cons first rest => simp only [beq_iff_eq, List.modifyHead_cons]

/-- A list with one separator in it has two pieces. -/
theorem splitOn_append (hfront : sep ∉ front) (hback : sep ∉ back) :
    splitOn sep (front ++ sep :: back) = [front, back] := by
  rw [splitOn_eq, List.splitOn_append_cons_self_of_not_mem hfront, List.splitOn_eq_singleton hback]

theorem not_mem_of_mem_splitOn (h : piece ∈ splitOn sep s) : sep ∉ piece := by
  induction s generalizing piece with
  | nil =>
    rw [List.mem_singleton.1 h]
    exact List.not_mem_nil
  | cons c r ih =>
    rw [splitOn] at h
    split at h
    · rw [List.mem_singleton.1 h]
      exact List.not_mem_nil
    · rename_i first rest hr
      rw [hr] at ih
      split at h
      · -- a separator begins with an empty piece
        rcases List.mem_cons.1 h with rfl | hmem
        · exact List.not_mem_nil
        · exact ih hmem
      · rename_i hne
        rcases List.mem_cons.1 h with rfl | hmem
        · intro hsep
          rcases List.mem_cons.1 hsep with heq | hsep
          · exact hne heq.symm
          · exact ih List.mem_cons_self hsep
        · exact ih (List.mem_cons_of_mem _ hmem)

end Pieces

/-! ## Ends -/

section Ends

variable {α : Type} {p : α → Bool} {left middle right s : List α}

theorem stripBy_of_forall (h : ∀ c ∈ s, p c = true) : stripBy p s = [] := by
  rw [stripBy, List.dropWhile_eq_nil_iff.2 h]
  rfl

/-- What stands between blanks is left, if it has none at its own ends. -/
theorem stripBy_surrounded (hleft : ∀ c ∈ left, p c = true) (hright : ∀ c ∈ right, p c = true)
    (hne : middle ≠ []) (hhead : middle.head?.any p = false)
    (hlast : middle.getLast?.any p = false) : stripBy p (left ++ (middle ++ right)) = middle := by
  have hfront : (middle ++ right).head?.any p = false := by
    rwa [List.head?_append_of_ne_nil _ hne]
  have hback : middle.reverse.head?.any p = false := by
    rwa [List.head?_reverse]
  have hreverse : ∀ c ∈ right.reverse, p c = true := fun c hc => hright c (List.mem_reverse.1 hc)
  rw [stripBy, dropWhile_append_stop hleft hfront, List.reverse_append,
    dropWhile_append_stop hreverse hback, List.reverse_reverse]

theorem stripBy_eq_self (hhead : s.head?.any p = false) (hlast : s.getLast?.any p = false) :
    stripBy p s = s := by
  cases s with
  | nil => rfl
  | cons c r =>
    have hwhole := stripBy_surrounded (List.forall_mem_nil _) (List.forall_mem_nil _)
      (List.cons_ne_nil c r) hhead hlast
    rwa [List.nil_append, List.append_nil] at hwhole

/-- Stripping takes from the front and then from the back. -/
theorem stripBy_eq_rdropWhile (p : α → Bool) (s : List α) :
    stripBy p s = (s.dropWhile p).rdropWhile p := rfl

/-- Every list is what is left of it, with blanks around. -/
theorem exists_surrounded (p : α → Bool) (s : List α) :
    ∃ left right, s = left ++ (stripBy p s ++ right) ∧ (∀ c ∈ left, p c = true) ∧
      ∀ c ∈ right, p c = true := by
  refine ⟨s.takeWhile p, (s.dropWhile p).rtakeWhile p, ?_, fun c => List.mem_takeWhile_imp,
    fun c => List.mem_rtakeWhile_imp⟩
  rw [stripBy_eq_rdropWhile, List.rdropWhile_append_rtakeWhile, List.takeWhile_append_dropWhile]

theorem head?_dropWhile (p : α → Bool) (s : List α) : (s.dropWhile p).head?.any p = false := by
  have hhead := List.head?_dropWhile_not p s
  cases hs : (s.dropWhile p).head? with
  | none => rfl
  | some c =>
    rw [hs] at hhead
    exact hhead

theorem getLast?_stripBy (p : α → Bool) (s : List α) : (stripBy p s).getLast?.any p = false := by
  rw [stripBy, List.getLast?_reverse]
  exact head?_dropWhile p _

/-- What is taken from the back leaves the front. -/
theorem head?_stripBy (p : α → Bool) (s : List α) : (stripBy p s).head?.any p = false := by
  have hprefix : stripBy p s <+: s.dropWhile p := List.rdropWhile_prefix p _
  cases hs : stripBy p s with
  | nil => rfl
  | cons c r =>
    obtain ⟨more, heq⟩ := hprefix
    have hhead := head?_dropWhile p s
    rwa [← heq, hs] at hhead

end Ends

end Dataspace.Text
