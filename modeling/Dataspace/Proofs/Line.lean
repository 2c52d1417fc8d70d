import Dataspace.Mime.Line
import Dataspace.Proofs.Utf8

/-!
# Lines and delimiters

A text is cut into lines after each line feed, and after each carriage return that no line feed
follows. Nothing gets lost, and what follows a line feed is cut as if it stood alone, so that parts
between lines of their own can be looked at one by one.

* **`flatten_ofOctets`** — put together the lines are the text.
* **`ofOctets_append`** — the lines of two texts, if the first ends with a line feed.
* **`ofOctets_line`** — a line of its own.
* **`delimiter?_eq_none_of_front`** — no line of a text that is free of a mark is a delimiter, not
  even with a line end, or half of one, put behind the text.
-/

namespace Dataspace.Mime.Line

open Text (Octets)

/-! ## Cutting -/

theorem ofOctets_cons_of_ends {b : UInt8} {r : Octets} (h : endsWith b r.head? = true) :
    ofOctets (b :: r) = [b] :: ofOctets r := by
  rw [ofOctets, if_pos h]

/-- An octet that ends no line belongs to the line of the next one. -/
theorem ofOctets_cons_of_open {b : UInt8} {r line : Octets} {more : List Octets}
    (h : endsWith b r.head? = false) (hr : ofOctets r = line :: more) :
    ofOctets (b :: r) = (b :: line) :: more := by
  rw [ofOctets, h, hr]
  rfl

theorem flatten_ofOctets (s : Octets) : (ofOctets s).flatten = s := by
  induction s with
  | nil => rfl
  | cons b r ih =>
    cases hends : endsWith b r.head? with
    | true =>
      rw [ofOctets_cons_of_ends hends, List.flatten_cons, ih]
      rfl
    | false =>
      -- the octet goes to the front of the first line of the rest, or is the last one of all
      cases hr : ofOctets r with
      | nil =>
        rw [hr] at ih
        rw [ofOctets, hends, hr, ← ih]
        rfl
      | cons line more =>
        rw [ofOctets_cons_of_open hends hr]
        rw [hr, List.flatten_cons] at ih
        rw [List.flatten_cons, List.cons_append, ih]

/-- A line is a piece of the text. -/
theorem infix_of_mem_ofOctets {s line : Octets} (h : line ∈ ofOctets s) : line <:+: s := by
  have hpiece := List.infix_of_mem_flatten h
  rwa [flatten_ofOctets] at hpiece

/-- A line feed always ends a line. -/
theorem ofOctets_append (s r : Octets) :
    ofOctets (s ++ 0x0A :: r) = ofOctets (s ++ [0x0A]) ++ ofOctets r := by
  induction s with
  | nil => rw [List.nil_append, ofOctets_cons_of_ends rfl]; rfl
  | cons b s ih =>
    -- the first octet sees the same neighbour with and without the text behind the line feed
    have hhead : (s ++ 0x0A :: r).head? = (s ++ [0x0A]).head? := by
      cases s <;> rfl
    rw [List.cons_append, List.cons_append]
    cases hends : endsWith b (s ++ [0x0A]).head? with
    | true => rw [ofOctets_cons_of_ends hends, ofOctets_cons_of_ends (hhead ▸ hends), ih]; rfl
    | false =>
      cases hlines : ofOctets (s ++ [0x0A]) with
      | nil =>
        have hflat := flatten_ofOctets (s ++ [0x0A])
        rw [hlines] at hflat
        exact absurd hflat.symm (by simp)
      | cons line more =>
        rw [hlines, List.cons_append] at ih
        rw [ofOctets_cons_of_open hends hlines, ofOctets_cons_of_open (hhead ▸ hends) ih]
        rfl

/-- An octet that is no line end belongs to the line of the next one, if there is a next one. -/
theorem ofOctets_cons_of_singleton {b : UInt8} {r : Octets} (hb : isLineEnd b = false)
    (hr : r ≠ [] → ofOctets r = [r]) : ofOctets (b :: r) = [b :: r] := by
  simp only [isLineEnd, Bool.or_eq_false_iff, beq_eq_false_iff_ne] at hb
  have hends : endsWith b r.head? = false := by
    simp only [endsWith, hb.1, hb.2, decide_false, Bool.false_and, Bool.or_self]
  cases r with
  | nil => rw [ofOctets, hends]; rfl
  | cons c r => exact ofOctets_cons_of_open hends (hr (List.cons_ne_nil c r))

theorem prefix_lineEnd {e : Octets} (h : e <+: [0x0D, 0x0A]) :
    e = [] ∨ e = [0x0D] ∨ e = [0x0D, 0x0A] := by
  rcases List.prefix_cons_iff.1 h with hnil | ⟨r, hr, h⟩
  · exact .inl hnil
  rcases List.prefix_cons_iff.1 h with hnil | ⟨t, ht, h⟩
  · exact .inr (.inl (by rw [hr, hnil]))
  · exact .inr (.inr (by rw [hr, ht, List.prefix_nil.1 h]))

/-- Octets without a line end, and one behind them as far as it goes, are one line. -/
theorem ofOctets_singleton {s e : Octets} (h : ∀ b ∈ s, isLineEnd b = false)
    (he : e <+: [0x0D, 0x0A]) : s ++ e ≠ [] → ofOctets (s ++ e) = [s ++ e] := by
  induction s with
  | nil =>
    intro hne
    rcases prefix_lineEnd he with rfl | rfl | rfl
    · exact absurd rfl hne
    · rfl
    · rfl
  | cons b s ih =>
    exact fun _ => ofOctets_cons_of_singleton (h b List.mem_cons_self)
      (ih fun x hx => h x (List.mem_cons_of_mem _ hx))

/-- There is no other line. -/
theorem eq_of_mem_ofOctets {s e : Octets} (h : ∀ b ∈ s, isLineEnd b = false)
    (he : e <+: [0x0D, 0x0A]) {l : Octets} (hl : l ∈ ofOctets (s ++ e)) : l = s ++ e := by
  by_cases hnil : s ++ e = []
  · rw [hnil] at hl
    cases hl
  · rw [ofOctets_singleton h he hnil] at hl
    exact List.mem_singleton.1 hl

/-- Octets without a line end, and then one, are a line. -/
theorem ofOctets_line {s : Octets} (h : ∀ b ∈ s, isLineEnd b = false) (r : Octets) :
    ofOctets (s ++ 0x0D :: 0x0A :: r) = (s ++ [0x0D, 0x0A]) :: ofOctets r := by
  have hone : ofOctets (s ++ [0x0D, 0x0A]) = [s ++ [0x0D, 0x0A]] :=
    ofOctets_singleton h (List.prefix_refl _) (List.append_ne_nil_of_right_ne_nil _ (by decide))
  -- the carriage return belongs to the line feed after it
  have hsplit := ofOctets_append (s ++ [0x0D]) r
  simp only [List.append_assoc, List.singleton_append] at hsplit
  rw [hsplit, hone]
  rfl

/-- Octets from the space on are no line ends. -/
theorem isLineEnd_of_le {b : UInt8} (h : 0x20 ≤ b.toNat) : isLineEnd b = false := by
  simp only [isLineEnd, Bool.or_eq_false_iff, beq_eq_false_iff_ne]
  constructor <;> rintro rfl <;> exact absurd h (by decide)

/-- A line end that was put behind a text can be taken away again. -/
theorem withoutEnd_append (s : Octets) : withoutEnd (s ++ [0x0D, 0x0A]) = s := by
  rw [withoutEnd, List.reverse_append]
  exact List.reverse_reverse s

/-- So can the first half of one. -/
theorem withoutEnd_append_of_front (s : Octets) {e : Octets} (he : e <+: [0x0D, 0x0A])
    (hne : e ≠ []) : withoutEnd (s ++ e) = s := by
  rcases prefix_lineEnd he with rfl | rfl | rfl
  · exact absurd rfl hne
  · rw [withoutEnd, List.reverse_append]
    exact List.reverse_reverse s
  · exact withoutEnd_append s

/-- A text that does not end with a line end is left as it is. -/
theorem withoutEnd_append_of_open (s : Octets) {d : Octets} (hne : d ≠ [])
    (h : ∀ b ∈ d, isLineEnd b = false) : withoutEnd (s ++ d) = s ++ d := by
  rcases List.eq_nil_or_concat d with rfl | ⟨d, b, rfl⟩
  · exact absurd rfl hne
  rw [List.concat_eq_append] at h ⊢
  have hb := h b List.mem_concat_self
  rw [← List.append_assoc, withoutEnd, List.reverse_append]
  simp only [List.reverse_singleton, List.singleton_append]
  split
  · rename_i heq
    obtain ⟨rfl, -⟩ := List.cons.inj heq
    cases hb
  · rename_i heq
    obtain ⟨rfl, -⟩ := List.cons.inj heq
    rw [if_neg (by rw [hb]; exact Bool.false_ne_true)]
  · rename_i heq
    cases heq

theorem withoutEnd_of_open {s : Octets} (h : ∀ b ∈ s, isLineEnd b = false) : withoutEnd s = s := by
  cases s with
  | nil => rfl
  | cons b s => exact withoutEnd_append_of_open [] (List.cons_ne_nil b s) h

/-! ## Delimiters -/

/-- What a delimiter begins with. -/
def mark (boundary : List Char) : Octets :=
  0x2D :: 0x2D :: Text.utf8 (String.ofList boundary)

variable {boundary : List Char}

theorem delimiter?_mark_append (h : boundary.all (·.toNat < 0x80) = true) (tail : Octets) :
    delimiter? boundary (mark boundary ++ tail) =
      match tail with
      | 0x2D :: 0x2D :: r => if isBlankTail r then some .final else none
      | r => if isBlankTail r then some .between else none := by
  have hmark : (mark boundary).isPrefixOf (mark boundary ++ tail) = true :=
    List.isPrefixOf_iff_prefix.2 (List.prefix_append _ _)
  have hdrop : (mark boundary ++ tail).drop (mark boundary).length = tail := List.drop_left
  rw [mark] at hmark hdrop
  rw [delimiter?]
  simp only [mark, h, hmark, hdrop, Bool.and_self, if_true]
  rfl

theorem delimiter?_eq_none {line : Octets} (h : ¬ mark boundary <+: line) :
    delimiter? boundary line = none := by
  have hmark : (mark boundary).isPrefixOf line = false :=
    Bool.eq_false_iff.2 fun htrue => h (List.isPrefixOf_iff_prefix.1 htrue)
  rw [mark] at hmark
  rw [delimiter?]
  simp only [hmark, Bool.and_false, Bool.false_eq_true, if_false]

/-- Nor is one that begins with something else than a hyphen. -/
theorem delimiter?_eq_none_of_head {line : Octets} {b : UInt8} (hline : line.head? = some b)
    (hb : b ≠ 0x2D) : delimiter? boundary line = none := by
  refine delimiter?_eq_none ?_
  rintro ⟨r, rfl⟩
  exact hb (Option.some.inj hline).symm

/-- A mark that holds none of some octets is not made by putting them behind a text. -/
theorem infix_of_infix_append {m s tail : Octets} (hm : m ≠ []) (htail : ∀ b ∈ tail, b ∉ m)
    (h : m <:+: s ++ tail) : m <:+: s := by
  induction tail generalizing s with
  | nil => rwa [List.append_nil] at h
  | cons b tail ih =>
    have hrest : m <:+: s ++ [b] := by
      refine ih (fun x hx => htail x (List.mem_cons_of_mem _ hx)) ?_
      rwa [List.append_assoc]
    rcases List.infix_concat_iff.1 hrest with hsuffix | hpiece
    · rcases List.suffix_concat_iff.1 hsuffix with hnil | ⟨t, ht, -⟩
      · exact absurd hnil hm
      · exact absurd (ht ▸ List.mem_append_right t List.mem_cons_self)
          (htail b List.mem_cons_self)
    · exact hpiece

/-- **No delimiter inside.** If the mark does not occur in a text, no line of the text is a
delimiter, as much as there is of a line end behind it counted in. -/
theorem delimiter?_eq_none_of_front {s e line : Octets} (hfree : ¬ mark boundary <:+: s)
    (hends : ∀ b ∈ mark boundary, isLineEnd b = false) (he : e <+: [0x0D, 0x0A])
    (hline : line ∈ ofOctets (s ++ e)) : delimiter? boundary line = none := by
  -- a line is a piece of the text, and so is what it begins with
  refine delimiter?_eq_none fun hmark => hfree ?_
  have hpiece := hmark.isInfix.trans (infix_of_mem_ofOctets hline)
  refine infix_of_infix_append (List.cons_ne_nil _ _) ?_ hpiece
  intro b hb hmem
  have hend := hends b hmem
  rcases List.mem_cons.1 (he.subset hb) with rfl | hb
  · exact absurd hend (by decide)
  · rw [List.mem_singleton.1 hb] at hend
    exact absurd hend (by decide)

theorem delimiter?_eq_none_of_free {s line : Octets} (hfree : ¬ mark boundary <:+: s)
    (hends : ∀ b ∈ mark boundary, isLineEnd b = false)
    (hline : line ∈ ofOctets (s ++ [0x0D, 0x0A])) : delimiter? boundary line = none :=
  delimiter?_eq_none_of_front hfree hends (List.prefix_refl _) hline

end Dataspace.Mime.Line
