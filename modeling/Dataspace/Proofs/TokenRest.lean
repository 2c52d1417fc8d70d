import Dataspace.Mime.Token
import Mathlib.Data.List.Infix

/-!
# What readers of tokens leave

Every reader of a header text takes something from its front and leaves the rest as it is: an end
of the input. What decodes encoded words and quoted strings decodes what it returns, never what it
leaves. So nothing can turn up later in the reading of a field that does not stand in the field.

There is one lemma for each reader, in the order of their definitions; they lead up to
**`suffix_upToSemicolon`** and **`leavesEnd_token`**.
-/

namespace Dataspace.Mime

variable {s found rest : Glyphs}

theorem Glyphs.suffix_blanks (s : Glyphs) : (Glyphs.blanks s).2 <:+ s := by
  rw [Glyphs.blanks, List.span_eq_takeWhile_dropWhile]
  exact List.dropWhile_suffix _

/-- A reader that finds something leaves an end of its input. -/
def LeavesEnd (reader : Glyphs → Option (Glyphs × Glyphs)) : Prop :=
  ∀ s found rest, reader s = some (found, rest) → rest <:+ s

theorem LeavesEnd.or {a b : Glyphs → Option (Glyphs × Glyphs)} (ha : LeavesEnd a)
    (hb : LeavesEnd b) : LeavesEnd fun s => (a s).or (b s) := by
  intro s found rest h
  rcases Option.or_eq_some_iff.1 h with h | ⟨-, h⟩
  · exact ha s found rest h
  · exact hb s found rest h

/-! ## Encoded words -/

namespace EncodedWord

variable {word : Glyphs}

theorem suffix_of_untilEnd : ∀ {s word rest : Glyphs}, untilEnd s = some (word, rest) → rest <:+ s
  | [], _, _, h => by cases h
  | u :: r, word, rest, h => by
    unfold untilEnd at h
    split at h
    · -- the end mark
      cases h
      exact (List.suffix_cons _ _).trans (List.suffix_cons _ _)
    · obtain ⟨⟨word, rest⟩, hmore, heq⟩ := Option.map_eq_some_iff.1 h
      cases heq
      exact (suffix_of_untilEnd hmore).trans (List.suffix_cons u r)

theorem suffix_of_split (h : split s = some (word, rest)) : rest <:+ s := by
  rw [split] at h
  cases hword : untilEnd s with
  | none => rw [hword] at h; cases h
  | some found =>
    obtain ⟨first, after⟩ := found
    have hafter := suffix_of_untilEnd hword
    rw [hword] at h
    simp only [bind, Option.bind] at h
    split at h
    · -- the end mark belongs to the word, which goes on to the next one
      cases hmore : untilEnd after with
      | none =>
        rw [hmore] at h
        cases h
        exact List.nil_suffix
      | some found =>
        rw [hmore] at h
        cases h
        exact (suffix_of_untilEnd hmore).trans hafter
    · cases h
      exact hafter

theorem leavesEnd_read : LeavesEnd read := by
  intro s found rest h
  unfold read at h
  split at h
  · rename_i r
    cases hsplit : split r with
    | none => rw [hsplit] at h; cases h
    | some found =>
      obtain ⟨word, after⟩ := found
      rw [hsplit] at h
      simp only [bind, Option.bind] at h
      split at h
      · cases h
      · cases h
        exact (suffix_of_split hsplit).trans
          ((List.suffix_cons _ _).trans (List.suffix_cons _ _))
  · cases h

end EncodedWord

namespace Token

theorem leavesEnd_run (ends : List Char) : LeavesEnd (run ends) := by
  intro s found rest h
  rw [run, List.span_eq_takeWhile_dropWhile] at h
  split at h
  · cases h
  · cases h
    exact List.dropWhile_suffix _

/-! ## Comments and blanks -/

theorem suffix_unescaped (ends : List Char) (s : Glyphs) :
    ∀ escaped, (unescaped ends escaped s).2 <:+ s := by
  induction s with
  | nil => exact fun _ => List.suffix_refl _
  | cons u r ih =>
    intro escaped
    rw [unescaped]
    split
    · exact List.suffix_refl _
    split
    · exact (ih true).trans (List.suffix_cons u r)
    split
    · exact List.suffix_refl _
    · exact (ih false).trans (List.suffix_cons u r)

theorem suffix_commentInside (fuel : Nat) : ∀ s, (commentInside fuel s).2 <:+ s := by
  induction fuel with
  | zero => exact fun s => List.suffix_refl s
  | succ fuel ih =>
    intro s
    cases s with
    | nil => exact List.suffix_refl _
    | cons u r =>
      rw [commentInside]
      split
      · exact List.suffix_cons u r
      · refine (ih _).trans ?_
        split
        · exact Glyphs.suffix_blanks (u :: r)
        split
        · exact (ih r).trans (List.suffix_cons u r)
        · exact suffix_unescaped _ _ _

theorem suffix_gapsFrom (fuel : Nat) : ∀ s, (gapsFrom fuel s).2 <:+ s := by
  induction fuel with
  | zero => exact fun s => List.suffix_refl s
  | succ fuel ih =>
    intro s
    cases s with
    | nil => exact List.suffix_refl _
    | cons u r =>
      rw [gapsFrom]
      split
      · exact (ih _).trans (Glyphs.suffix_blanks _)
      split
      · exact (ih _).trans ((suffix_commentInside _ r).trans (List.suffix_cons u r))
      · exact List.suffix_refl _

theorem suffix_gaps (s : Glyphs) : (gaps s).2 <:+ s :=
  suffix_gapsFrom _ s

theorem suffix_of_surrounded {thing : Glyphs → Option (Glyphs × Glyphs)} (hthing : LeavesEnd thing)
    {shown : Glyphs} (h : surrounded thing s = some (shown, found, rest)) : rest <:+ s := by
  rw [surrounded] at h
  cases hfound : thing (gaps s).2 with
  | none => simp only [hfound, bind, Option.bind] at h; cases h
  | some p =>
    simp only [hfound, bind, Option.bind] at h
    cases h
    exact (suffix_gaps p.2).trans ((hthing _ _ _ hfound).trans (suffix_gaps s))

/-- The same if only the shown text is kept. -/
theorem leavesEnd_surrounded {thing : Glyphs → Option (Glyphs × Glyphs)}
    (hthing : LeavesEnd thing) :
    LeavesEnd fun s => (surrounded thing s).map fun (shown, _, rest) => (shown, rest) := by
  intro s shown rest h
  obtain ⟨⟨shown, found, rest⟩, hfound, heq⟩ := Option.map_eq_some_iff.1 h
  cases heq
  exact suffix_of_surrounded hthing hfound

/-! ## Quoted strings -/

theorem suffix_piece (s : Glyphs) : (piece s).2 <:+ s := by
  unfold piece
  split
  · exact List.suffix_refl _
  split
  · exact Glyphs.suffix_blanks _
  split
  · rename_i hword
    exact EncodedWord.leavesEnd_read _ _ _ hword
  · exact suffix_unescaped _ _ _

theorem suffix_pieces (fuel : Nat) : ∀ s, (pieces fuel s).2 <:+ s := by
  induction fuel with
  | zero => exact fun s => List.suffix_refl s
  | succ fuel ih =>
    intro s
    cases s with
    | nil => exact List.suffix_refl _
    | cons u r =>
      rw [pieces]
      split
      · exact List.suffix_cons u r
      · exact (ih _).trans (suffix_piece (u :: r))

theorem leavesEnd_quotedContent : LeavesEnd quotedContent := by
  intro s found rest h
  unfold quotedContent at h
  split at h
  · cases h
    exact (suffix_pieces _ _).trans (List.suffix_cons _ _)
  · cases h

theorem leavesEnd_quotedShown : LeavesEnd quotedShown := by
  intro s found rest h
  obtain ⟨⟨content, rest⟩, hcontent, heq⟩ := Option.map_eq_some_iff.1 h
  cases heq
  exact leavesEnd_quotedContent _ _ _ hcontent

/-! ## Phrases -/

theorem leavesEnd_atom : LeavesEnd atom := by
  intro s found rest h
  unfold atom at h
  split at h
  · rename_i hword
    cases h
    exact EncodedWord.leavesEnd_read _ _ _ hword
  · exact leavesEnd_run _ _ _ _ h

theorem leavesEnd_word : LeavesEnd word :=
  leavesEnd_surrounded (leavesEnd_quotedShown.or leavesEnd_atom)

theorem suffix_loosePart (s : Glyphs) : (loosePart s).2 <:+ s := by
  unfold loosePart
  split
  · exact List.suffix_refl _
  split
  · exact List.suffix_cons _ _
  · rename_i u r _
    cases hword : word (u :: r) with
    | none => exact suffix_gaps _
    | some found => exact leavesEnd_word _ _ _ hword

theorem suffix_loose (stops : List Char) (fuel : Nat) : ∀ s, (loose stops fuel s).2 <:+ s := by
  induction fuel with
  | zero => exact fun s => List.suffix_refl s
  | succ fuel ih =>
    intro s
    cases s with
    | nil => exact List.suffix_refl _
    | cons u r =>
      rw [loose]
      split
      · exact List.suffix_refl _
      · exact (ih _).trans (suffix_loosePart (u :: r))

theorem suffix_upToSemicolon (s : Glyphs) : (upToSemicolon s).2 <:+ s :=
  suffix_loose _ _ s

theorem leavesEnd_token : LeavesEnd token :=
  leavesEnd_surrounded (leavesEnd_run tokenEnds)

end Token

end Dataspace.Mime
