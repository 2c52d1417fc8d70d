import Dataspace.Multipart
import Dataspace.Proofs.HeaderField
import Dataspace.Proofs.Pieces
import Mathlib.Data.List.Basic

/-!
# The content type of a form

A form is announced by `multipart/form-data; boundary=…`, with a boundary that needs no quotes
there, such as one of hexadecimal digits. The reader brings this field into the form in which it
shows, with the boundary in quotes, and looks the type and the boundary up there. This module
follows the one parameter through the tokens, the sections and the quotes; but for its name it is
like the parameter by which a part has its name, whose value stands in quotes from the start.

* **`spells_token`**, **`spells_quoted`** — the two ways to write a value.
* **`parametersShown_whole`** — the parameter as it shows, whichever way it was written.
* **`mediaTypeShown_form`** — the field as it shows.
* **`Shown.parameter?_quoted`** — a parameter is looked up there.
* **`ofShown_form`**, **`parameter?_form`** — the type and the boundary.
-/

namespace Dataspace.Mime

/-! ## The characters of a boundary -/

/-- A text of hexadecimal digits. -/
def IsHexText (s : List Char) : Prop :=
  ∀ c ∈ s, (Text.hexValue? c).isSome = true

/-- A text that may stand as the value of a parameter without quotes: printable characters, and none
that ends such a value. -/
def IsTokenText (s : List Char) : Prop :=
  ∀ c ∈ s, (0x21 ≤ c.toNat ∧ c.toNat ≤ 0x7E) ∧ c ∉ Token.valueEnds

/-- A text of printable characters, blanks among them. -/
def IsPrintableText (s : List Char) : Prop :=
  ∀ c ∈ s, 0x20 ≤ c.toNat ∧ c.toNat ≤ 0x7E

variable {b : List Char}

theorem IsHexText.range (h : IsHexText b) {c : Char} (hc : c ∈ b) :
    0x30 ≤ c.toNat ∧ c.toNat ≤ 0x66 := by
  have hdigit := h c hc
  simp only [Text.hexValue?] at hdigit
  -- decimal digits, lower case and upper case are three ranges
  split at hdigit
  · rename_i hrange
    simp only [Bool.and_eq_true, decide_eq_true_eq] at hrange
    omega
  split at hdigit
  · rename_i hrange
    simp only [Bool.and_eq_true, decide_eq_true_eq] at hrange
    omega
  split at hdigit
  · rename_i hrange
    simp only [Bool.and_eq_true, decide_eq_true_eq] at hrange
    omega
  · cases hdigit

theorem IsHexText.isTokenText (h : IsHexText b) : IsTokenText b := by
  intro c hc
  have hrange := h.range hc
  have hends : ∀ x ∈ Token.valueEnds, (Text.hexValue? x).isSome = false :=
    forall_mem_of_all (by decide)
  refine ⟨⟨by omega, by omega⟩, fun hmem => ?_⟩
  have hdigit := h c hc
  rw [hends c hmem] at hdigit
  cases hdigit

/-- Hexadecimal digits may stand wherever such a text may. -/
instance : Coe (IsHexText b) (IsTokenText b) :=
  ⟨IsHexText.isTokenText⟩

theorem IsTokenText.range (h : IsTokenText b) {c : Char} (hc : c ∈ b) :
    0x21 ≤ c.toNat ∧ c.toNat ≤ 0x7E :=
  (h c hc).1

/-- None of its characters is one of those that end a value. -/
theorem IsTokenText.not_mem (h : IsTokenText b) {s : List Char}
    (hs : ∀ x ∈ s, x ∈ Token.valueEnds) {c : Char} (hc : c ∈ b) : c ∉ s :=
  fun hmem => (h c hc).2 (hs c hmem)

theorem IsTokenText.isOneOf (h : IsTokenText b) {s : List Char}
    (hs : ∀ x ∈ s, x ∈ Token.valueEnds) :
    ∀ u ∈ Glyphs.ofChars b, u.isOneOf s = false := by
  intro u hu
  obtain ⟨c, hc, rfl⟩ := List.mem_map.1 hu
  have hnot := h.not_mem hs hc
  simpa [Glyph.isOneOf] using hnot

theorem IsTokenText.isPrintableText (h : IsTokenText b) : IsPrintableText b := by
  intro c hc
  have hrange := h.range hc
  omega

instance : Coe (IsTokenText b) (IsPrintableText b) :=
  ⟨IsTokenText.isPrintableText⟩

theorem IsPrintableText.ascii (h : IsPrintableText b) : ∀ c ∈ b, c.toNat < 0x80 :=
  fun c hc => Nat.lt_succ_of_le (Nat.le_succ_of_le (h c hc).2)

theorem IsPrintableText.all_ascii (h : IsPrintableText b) :
    b.all (fun c => decide (c.toNat < 0x80)) = true :=
  List.all_eq_true.2 fun c hc => decide_eq_true (h.ascii c hc)

theorem isBlank_of_printable {c : Char} (h : 0x21 ≤ c.toNat ∧ c.toNat ≤ 0x7E) :
    Text.isBlank c = false := by
  simp only [Text.isBlank, Text.isWhiteSpace, Bool.or_eq_false_iff, Bool.and_eq_false_iff,
    decide_eq_false_iff_not, beq_eq_false_iff_ne]
  omega

theorem IsTokenText.isBlank (h : IsTokenText b) {c : Char} (hc : c ∈ b) :
    Text.isBlank c = false :=
  isBlank_of_printable (h.range hc)

/-! ## Tokens -/

namespace Token

/-- Neither a blank nor a comment stands in front. -/
def NoGap (s : Glyphs) : Prop :=
  s.head?.any (fun u => u.isGap || u.isBlank || u = .char '(') = false

theorem gaps_of_noGap {s : Glyphs} (h : NoGap s) : gaps s = ([], s) := by
  cases s with
  | nil => rfl
  | cons u r =>
    simp only [NoGap, List.head?_cons, Option.any_some, Bool.or_eq_false_iff,
      decide_eq_false_iff_not] at h
    rw [gaps, List.length_cons, gapsFrom, h.1.1]
    simp only [h.2, Bool.false_eq_true, if_false]

theorem gaps_space {s : Glyphs} (h : NoGap s) : gaps (.char ' ' :: s) = ([.char ' '], s) := by
  have hblank : s.head?.any Glyph.isBlank = false := by
    cases s with
    | nil => rfl
    | cons u r =>
      simp only [NoGap, List.head?_cons, Option.any_some, Bool.or_eq_false_iff] at h
      exact h.1.2
  have hblanks : Glyphs.blanks (.char ' ' :: s) = ([.char ' '], s) := by
    have hspace : ∀ u ∈ [Glyph.char ' '], u.isBlank = true := by decide
    rw [Glyphs.blanks, List.span_eq_takeWhile_dropWhile]
    exact congrArg₂ Prod.mk (takeWhile_append_stop hspace hblank)
      (dropWhile_append_stop hspace hblank)
  have hrest := gaps_of_noGap h
  rw [gaps] at hrest
  rw [gaps, List.length_cons, gapsFrom, hblanks]
  simp only [show Glyph.isGap (.char ' ') = true from rfl, if_true, hrest, List.append_nil]

/-- A run of characters up to one that ends it. -/
theorem run_append {ends : List Char} {xs ys : Glyphs} (hne : xs ≠ [])
    (hxs : ∀ u ∈ xs, u.isOneOf ends = false)
    (hys : ys.head?.any (fun u => !u.isOneOf ends) = false) :
    run ends (xs ++ ys) = some (xs, ys) := by
  have hspan : (xs ++ ys).span (fun u => !u.isOneOf ends) = (xs, ys) := by
    -- the run goes on over `xs` and stops where `ys` begins
    have hrun : ∀ u ∈ xs, (!u.isOneOf ends) = true := fun u hu => by rw [hxs u hu]; rfl
    rw [List.span_eq_takeWhile_dropWhile, takeWhile_append_stop hrun hys,
      dropWhile_append_stop hrun hys]
  rw [run, hspan]
  cases xs with
  | nil => exact absurd rfl hne
  | cons u xs => rfl

theorem surrounded_eq {thing : Glyphs → Option (Glyphs × Glyphs)} {s before r found rest : Glyphs}
    (hs : gaps s = (before, r)) (hthing : thing r = some (found, rest)) (hrest : NoGap rest) :
    surrounded thing s = some (before ++ found, found, rest) := by
  simp only [surrounded, hs, hthing, gaps_of_noGap hrest, Option.bind_eq_bind, Option.bind_some,
    Option.pure_def, List.append_nil]

/-- A printable character that opens no comment is no gap. -/
theorem noGap_cons {c : Char} (h : 0x21 ≤ c.toNat ∧ c.toNat ≤ 0x7E) (hparen : c ≠ '(')
    (r : Glyphs) : NoGap (.char c :: r) := by
  have hblank : (Glyph.char c).isBlank = false := isBlank_of_printable h
  have hgap : (Glyph.char c).isGap = false := by
    have hspace : c ∉ [' ', '\t'] := by
      intro hmem
      have hlow : ∀ x ∈ [' ', '\t'], x.toNat < 0x21 := forall_mem_of_all (by decide)
      exact absurd h.1 (Nat.not_le.2 (hlow c hmem))
    simpa [Glyph.isGap, Glyph.isOneOf] using hspace
  simp only [NoGap, List.head?_cons, Option.any_some, hgap, hblank, Glyph.char.injEq, hparen,
    decide_false, Bool.or_self]

/-- No gap stands in front of such a text. -/
theorem noGap_token (h : IsTokenText b) : NoGap (Glyphs.ofChars b) := by
  cases b with
  | nil => rfl
  | cons c r =>
    have hparen := h.not_mem (s := ['(']) (forall_mem_of_all (by decide)) List.mem_cons_self
    exact noGap_cons (h.range List.mem_cons_self) (fun heq => hparen (List.mem_singleton.2 heq)) _

end Token

/-! ## The parameter -/

namespace Token

/-- A run of characters up to one of the ends, where nothing is a blank or a backslash. -/
theorem unescaped_append {ends : List Char} {xs : Glyphs}
    (hxs : ∀ u ∈ xs, u.isGap = false ∧ u ≠ .char '\\' ∧ u.isOneOf ends = false) {c : Char}
    (hend : c ∈ ends) (hgap : (Glyph.char c).isGap = false) (hc : c ≠ '\\') (r : Glyphs) :
    unescaped ends false (xs ++ .char c :: r) = (xs, .char c :: r) := by
  induction xs with
  | nil =>
    have hstop : (Glyph.char c).isOneOf ends = true := List.contains_iff_mem.2 hend
    rw [List.nil_append, unescaped, hgap, hstop]
    simp only [Glyph.char.injEq, hc, decide_false, Bool.false_and, Bool.not_false, Bool.true_and,
      Bool.false_eq_true, if_false, if_true]
  | cons u xs ih =>
    obtain ⟨hugap, hbackslash, huend⟩ := hxs u List.mem_cons_self
    have hrest := ih fun x hx => hxs x (List.mem_cons_of_mem _ hx)
    rw [List.cons_append, unescaped, hugap, huend]
    simp only [hbackslash, decide_false, Bool.false_and, Bool.false_eq_true, if_false, hrest]

theorem piece_of_text {u : Glyph} {r text rest : Glyphs} (hgap : u.isGap = false)
    (hword : EncodedWord.read (u :: r) = none)
    (htext : unescaped ['"'] false (u :: r) = (text, rest)) :
    piece (u :: r) = (.text text, rest) := by
  rw [piece, hgap, hword, htext]
  rfl

theorem pieces_cons {u : Glyph} {r rest : Glyphs} {p : Piece} (hquote : u ≠ .char '"')
    (hpiece : piece (u :: r) = (p, rest)) (fuel : Nat) :
    pieces (fuel + 1) (u :: r) = (p :: (pieces fuel rest).1, (pieces fuel rest).2) := by
  rw [pieces, if_neg hquote, hpiece]

/-- **A text in quotes** is their content. -/
theorem quotedContent_token (h : IsTokenText b) (hne : b ≠ []) (r : Glyphs) :
    quotedContent (.char '"' :: (Glyphs.ofChars b ++ .char '"' :: r)) =
      some (Glyphs.ofChars b, r) := by
  have hinside : ∀ u ∈ Glyphs.ofChars b,
      u.isGap = false ∧ u ≠ .char '\\' ∧ u.isOneOf ['"'] = false := by
    intro u hu
    have hgap := h.isOneOf (s := [' ', '\t']) (forall_mem_of_all (by decide)) u hu
    have hbackslash := h.isOneOf (s := ['\\']) (forall_mem_of_all (by decide)) u hu
    refine ⟨hgap, ?_, h.isOneOf (forall_mem_of_all (by decide)) u hu⟩
    rintro rfl
    cases hbackslash
  have htext := unescaped_append hinside (List.mem_singleton.2 rfl) rfl (by decide) r
  obtain ⟨c, cs, rfl⟩ := List.exists_cons_of_ne_nil hne
  have hnot := h.not_mem (s := ['"', '=']) (forall_mem_of_all (by decide)) List.mem_cons_self
  simp only [List.mem_cons, List.not_mem_nil, or_false, not_or] at hnot
  -- an encoded word would begin with a sign of equality
  have hword : EncodedWord.read (Glyphs.ofChars (c :: cs) ++ .char '"' :: r) = none := by
    unfold EncodedWord.read
    split
    · rename_i heq
      exact absurd (Glyph.char.inj (List.cons.inj heq).1) hnot.2
    · rfl
  have hpiece : piece (Glyphs.ofChars (c :: cs) ++ .char '"' :: r) =
      (.text (Glyphs.ofChars (c :: cs)), .char '"' :: r) :=
    piece_of_text (hinside (.char c) List.mem_cons_self).1 hword htext
  have hlength : (Glyphs.ofChars (c :: cs) ++ .char '"' :: r).length =
      (cs.length + r.length + 1) + 1 := by
    simp only [Glyphs.ofChars, List.length_append, List.length_map, List.length_cons]
    omega
  have hend : pieces (cs.length + r.length + 1) (.char '"' :: r) = ([], r) := if_pos rfl
  have hpieces : pieces (Glyphs.ofChars (c :: cs) ++ .char '"' :: r).length
      (Glyphs.ofChars (c :: cs) ++ .char '"' :: r) = ([.text (Glyphs.ofChars (c :: cs))], r) := by
    have hcons := pieces_cons (fun heq => hnot.1 (Glyph.char.inj heq)) hpiece
      (cs.length + r.length + 1)
    rw [hend] at hcons
    rw [hlength]
    exact hcons
  rw [quotedContent, hpieces]
  simp only [joined, List.append_nil]

end Token

namespace Parameter

theorem ofChars_ne_nil (hne : b ≠ []) : Glyphs.ofChars b ≠ [] :=
  fun h => hne (List.map_eq_nil_iff.1 h)

theorem firstIs_token (h : IsTokenText b) {c : Char} (hc : c ∈ Token.valueEnds) :
    firstIs c (Glyphs.ofChars b) = false := by
  cases b with
  | nil => rfl
  | cons x r =>
    have hne : x ≠ c := by
      rintro rfl
      exact (h x List.mem_cons_self).2 hc
    simp only [Glyphs.ofChars, List.map_cons, firstIs, Glyph.char.injEq, hne, decide_false]

/-- **A value as it is written**: no blank and no mark of a character encoding stands in front, and
the reader takes it as a whole. -/
structure Spells (s value : Glyphs) : Prop where
  noGap : Token.NoGap s
  unmarked : firstIs (Char.ofNat 39) s = false
  plain : plainValue s = .ok (value, [])

/-- The value of a parameter, if the thing in front is just that. -/
theorem plainValue_eq {s value : Glyphs} (hgap : Token.NoGap s)
    (hthing : (Token.quotedContent s).or (Token.run Token.valueEnds s) = some (value, [])) :
    plainValue s = .ok (value, []) := by
  have hsurrounded : Token.surrounded
      (fun r => (Token.quotedContent r).or (Token.run Token.valueEnds r)) s =
        some ([] ++ value, value, []) :=
    Token.surrounded_eq (Token.gaps_of_noGap hgap) hthing rfl
  rw [plainValue, hsurrounded]
  rfl

/-- It may stand without quotes, -/
theorem spells_token (h : IsTokenText b) (hne : b ≠ []) :
    Spells (Glyphs.ofChars b) (Glyphs.ofChars b) := by
  have hquoted : Token.quotedContent (Glyphs.ofChars b) = none := by
    cases b with
    | nil => rfl
    | cons x r =>
      have hquote : x ≠ '"' := by
        rintro rfl
        exact absurd (h '"' List.mem_cons_self) (by decide)
      rw [Glyphs.ofChars, List.map_cons, Token.quotedContent.eq_def]
      split
      · rename_i heq
        cases heq
        exact absurd rfl hquote
      · rfl
  have hrun : Token.run Token.valueEnds (Glyphs.ofChars b ++ []) = some (Glyphs.ofChars b, []) :=
    Token.run_append (ofChars_ne_nil hne) (h.isOneOf (forall_mem_of_all (by decide))) rfl
  rw [List.append_nil] at hrun
  refine ⟨Token.noGap_token h, firstIs_token h (by decide),
    plainValue_eq (Token.noGap_token h) ?_⟩
  rw [hquoted, hrun]
  rfl

/-- and within them. -/
theorem spells_quoted (h : IsTokenText b) (hne : b ≠ []) :
    Spells (.char '"' :: (Glyphs.ofChars b ++ [.char '"'])) (Glyphs.ofChars b) := by
  refine ⟨rfl, rfl, plainValue_eq rfl ?_⟩
  rw [Token.quotedContent_token h hne]
  rfl

/-- **A name as it is written**: with nothing in it that ends names. -/
structure IsName (name : Glyphs) : Prop where
  ne_nil : name ≠ []
  inside : ∀ u ∈ name, u.isOneOf Token.nameEnds = false
  strip : Text.stripBy Glyph.isBlank name = name
  noGap : ∀ r, Token.NoGap (name ++ r)

def boundaryName : Glyphs :=
  Glyphs.ofChars "boundary".toList

theorem isName_boundary : IsName boundaryName :=
  ⟨by decide, by decide, by decide, fun _ => rfl⟩

/-- A parameter in one piece. -/
def whole (name value : Glyphs) : Parameter :=
  ⟨name, 0, false, .ascii, some value⟩

section Whole

variable {name s value : Glyphs}

theorem valueOf_whole (hs : Spells s value) (name : Glyphs) :
    valueOf name 0 false none s = .ok (whole name value, []) := by
  simp only [valueOf, hs.unmarked, hs.plain, Bool.false_eq_true, if_false]
  rfl

/-- **The parameter is read.** -/
theorem read_whole (hname : IsName name) (hs : Spells s value) :
    read (.char ' ' :: (name ++ .char '=' :: s)) = .ok (whole name value, []) := by
  have hrun : Token.run Token.nameEnds (name ++ .char '=' :: s) = some (name, .char '=' :: s) :=
    Token.run_append hname.ne_nil hname.inside rfl
  have hsurrounded := Token.surrounded_eq (Token.gaps_space (hname.noGap _)) hrun
    (show Token.NoGap (.char '=' :: s) from rfl)
  have hmarks : marks (.char '=' :: s) = .ok (0, false, .char '=' :: s) := rfl
  have hgaps := Token.gaps_of_noGap hs.noGap
  -- name, marks, sign of equality and value, with no gap but the one in front
  rw [read, hsurrounded]
  simp only [orRefuse, bind, Except.bind, hname.strip, List.isEmpty_cons, Bool.false_or, hmarks,
    hgaps, valueOf_whole hs, firstIs]
  rfl

/-- So are all parameters, which is this one. -/
theorem readAll_whole (hname : IsName name) (hs : Spells s value) (fuel : Nat) :
    readAll (fuel + 1) (.char ' ' :: (name ++ .char '=' :: s)) = .ok [whole name value] := by
  have hend : readAll fuel [] = .ok [] := by
    cases fuel <;> rfl
  rw [readAll, read_whole hname hs]
  simp only [List.isEmpty_cons, Bool.false_eq_true, if_false]
  exact congrArg (Except.map (whole name value :: ·)) hend

/-- A parameter in one piece has its value. -/
theorem resolve_whole (name value : Glyphs) : resolve [whole name value] = .ok [(name, value)] := by
  have hcombined : combined [whole name value] = .ok value := by
    rw [combined, List.mergeSort_singleton]
    exact congrArg Except.ok (List.append_nil _)
  have hnames : names [whole name value] = [name] := rfl
  have hsections : [whole name value].filter (fun p => p.name = name) = [whole name value] :=
    List.filter_eq_self.2 fun p hp => decide_eq_true (congrArg Parameter.name
      (List.mem_singleton.1 hp))
  simp only [resolve, hnames, List.mapM_cons, List.mapM_nil, hsections, hcombined, bind,
    Except.bind, pure, Except.pure]

/-- **The parameter as it shows**, with its value in quotes. -/
theorem parametersShown_whole (hname : IsName name) (h : IsTokenText b) (hne : b ≠ [])
    (hs : Spells s (Glyphs.ofChars b)) :
    parametersShown (.char ' ' :: (name ++ .char '=' :: s)) =
      .ok (.char ' ' :: (name ++ .char '=' :: .char '"' :: (Glyphs.ofChars b ++ [.char '"']))) := by
  -- nothing in it needs a backslash
  have hescape : Token.escape ['\\', '"'] (Glyphs.ofChars b) = Glyphs.ofChars b := by
    have hplain : ∀ u ∈ Glyphs.ofChars b,
        (if u.isOneOf ['\\', '"'] then [.char '\\', u] else [u]) = [u] := by
      intro u hu
      rw [h.isOneOf (forall_mem_of_all (by decide)) u hu]
      rfl
    rw [Token.escape, List.flatMap_congr hplain, List.flatMap_singleton']
  have hvalue : (Glyphs.ofChars b).isEmpty = false :=
    List.isEmpty_eq_false_iff.2 (ofChars_ne_nil hne)
  obtain ⟨u, us, rfl⟩ := List.exists_cons_of_ne_nil hname.ne_nil
  have hshown : shown [(u :: us, Glyphs.ofChars b)] = .char ' ' :: (u :: us ++
      .char '=' :: .char '"' :: (Glyphs.ofChars b ++ [.char '"'])) := by
    simp only [shown, List.map_cons, List.map_nil, hvalue, Bool.false_eq_true, if_false,
      List.intercalate, List.intersperse, List.flatten_cons, List.flatten_nil, List.append_nil,
      Token.quote, hescape, List.cons_append]
  rw [parametersShown, readAll_whole hname hs]
  simp only [bind, Except.bind, resolve_whole, hshown]
  rfl

end Whole

end Parameter

/-! ## The field -/

def formValue (b : List Char) : List Char :=
  "multipart/form-data; boundary=".toList ++ b

/-- The value as it shows. -/
def formShown (b : List Char) : List Char :=
  "multipart/form-data".toList ++ ';' :: (" boundary=".toList ++ '"' :: (b ++ ['"']))

/-- The field can be written as a header line. -/
theorem IsTokenText.writable (h : IsTokenText b) :
    Field.Writable "Content-Type".toList (formValue b) where
  name_ne_nil := by decide
  name_mem := forall_mem_of_all (by decide +kernel)
  value_mem := by
    have hform : ∀ c ∈ "multipart/form-data; boundary=".toList,
        0x20 ≤ c.toNat ∧ c.toNat ≤ 0x7E :=
      forall_mem_of_all (by decide +kernel)
    intro c hc
    rcases List.mem_append.1 hc with hc | hc
    · exact hform c hc
    · exact h.isPrintableText c hc
  value_head := by
    show some 'm' ≠ some ' '
    decide

theorem Token.token_append {xs ys : Glyphs} (hne : xs ≠ [])
    (hxs : ∀ u ∈ xs, u.isOneOf tokenEnds = false)
    (hys : ys.head?.any (fun u => !u.isOneOf tokenEnds) = false) (hfront : NoGap (xs ++ ys))
    (hrest : NoGap ys) : token (xs ++ ys) = some (xs, ys) := by
  rw [token, surrounded_eq (gaps_of_noGap hfront) (run_append hne hxs hys) hrest]
  rfl

namespace Field

/-- One parameter and nothing else, behind its semicolon. -/
theorem looseShown_whole {name s : Glyphs} (hname : Parameter.IsName name) (h : IsTokenText b)
    (hne : b ≠ []) (hs : Parameter.Spells s (Glyphs.ofChars b)) :
    looseShown (.char ';' :: .char ' ' :: (name ++ .char '=' :: s)) =
      .ok (.char ';' :: .char ' ' :: (name ++ .char '=' :: .char '"' ::
        (Glyphs.ofChars b ++ [.char '"']))) := by
  have hstop : ∀ r : Glyphs, Token.upToSemicolon (.char ';' :: r) = ([], .char ';' :: r) :=
    fun _ => rfl
  rw [looseShown, hstop]
  simp only [Parameter.parametersShown_whole hname h hne hs]
  rfl

/-- **The field as it shows.** -/
theorem mediaTypeShown_form (h : IsTokenText b) (hne : b ≠ []) :
    mediaTypeShown (Glyphs.ofChars (formValue b)) = .ok (formShown b) := by
  -- the type ends at the slash and the subtype at the semicolon
  have hmain : ∀ r : Glyphs, Token.token (Glyphs.ofChars "multipart".toList ++ .char '/' ::
      (Glyphs.ofChars "form-data".toList ++ r)) = some (Glyphs.ofChars "multipart".toList,
        .char '/' :: (Glyphs.ofChars "form-data".toList ++ r)) :=
    fun r => Token.token_append (by decide) (by decide) rfl rfl rfl
  have hsub : ∀ r : Glyphs, Token.token (Glyphs.ofChars "form-data".toList ++ .char ';' ::
      .char ' ' :: r) = some (Glyphs.ofChars "form-data".toList, .char ';' :: .char ' ' :: r) :=
    fun r => Token.token_append (by decide) (by decide) rfl rfl rfl
  have hvalue : Glyphs.ofChars (formValue b) = Glyphs.ofChars "multipart".toList ++
      .char '/' :: (Glyphs.ofChars "form-data".toList ++ .char ';' :: .char ' ' ::
        (Parameter.boundaryName ++ .char '=' :: Glyphs.ofChars b)) := by
    show ("multipart/form-data; boundary=".toList ++ b).map Glyph.char = _
    rfl
  have hshown : Glyphs.ofChars "multipart".toList ++ .char '/' ::
      (Glyphs.ofChars "form-data".toList ++ .char ';' :: .char ' ' :: (Parameter.boundaryName ++
        .char '=' :: .char '"' :: (Glyphs.ofChars b ++ [.char '"']))) =
      Glyphs.ofChars (formShown b) := by
    have hmap : (b ++ ['"']).map Glyph.char = b.map .char ++ [.char '"'] := List.map_append
    show _ = ("multipart/form-data".toList ++ ';' :: (" boundary=".toList ++
      '"' :: (b ++ ['"']))).map Glyph.char
    rw [List.map_append, List.map_cons, List.map_append, List.map_cons, hmap]
    rfl
  have hparameter := looseShown_whole Parameter.isName_boundary h hne (Parameter.spells_token h hne)
  rw [mediaTypeShown, hvalue, tokenThen, hmain]
  simp only [tokenThen, hsub, hparameter, Except.map, hshown, Glyphs.readable_ofChars]

end Field

/-! ## The type and the boundary -/

def formType : MediaType :=
  ⟨"multipart".toList, "form-data".toList⟩

theorem MediaType.ofShown_form (b : List Char) : MediaType.ofShown (formShown b) = formType := by
  have htake : (formShown b).takeWhile (fun c => decide (c ≠ ';')) =
      "multipart/form-data".toList :=
    takeWhile_append_stop (forall_mem_of_all (by decide)) rfl
  rw [ofShown, htake]
  decide +kernel

namespace Shown

/-- An entry without quotes ends at the first semicolon. -/
theorem entries_append {xs : List Char} (hxs : ∀ c ∈ xs, c ≠ ';' ∧ c ≠ '"') (r : List Char) :
    ∀ previous, entries false previous (xs ++ ';' :: r) = xs :: entries false none r := by
  induction xs with
  | nil => exact fun _ => rfl
  | cons c xs ih =>
    intro previous
    obtain ⟨hsemicolon, hquote⟩ := hxs c List.mem_cons_self
    have hrest := ih (fun x hx => hxs x (List.mem_cons_of_mem _ hx)) (some c)
    rw [List.cons_append, entries]
    simp only [hsemicolon, hquote, decide_false, Bool.false_and, Bool.false_eq_true, if_false,
      hrest]

/-- Without a semicolon it is the only one. -/
theorem entries_single {xs : List Char} (hxs : ∀ c ∈ xs, c ≠ ';' ∧ c ≠ '"') :
    ∀ previous, entries false previous xs = [xs] := by
  induction xs with
  | nil => exact fun _ => rfl
  | cons c xs ih =>
    intro previous
    obtain ⟨hsemicolon, hquote⟩ := hxs c List.mem_cons_self
    have hrest := ih (fun x hx => hxs x (List.mem_cons_of_mem _ hx)) (some c)
    rw [entries]
    simp only [hsemicolon, hquote, decide_false, Bool.false_and, Bool.false_eq_true, if_false,
      hrest]

/-- Inside quotes an entry goes on up to the closing quote. -/
theorem entries_quoted {xs : List Char} (hxs : ∀ c ∈ xs, c ≠ '"' ∧ c ≠ '\\') :
    ∀ previous, previous ≠ some '\\' →
      entries true previous (xs ++ ['"']) = [xs ++ ['"']] := by
  induction xs with
  | nil =>
    intro previous hprevious
    rw [List.nil_append, entries]
    simp only [hprevious, ne_eq, not_false_eq_true, decide_true, Bool.and_self, if_true,
      Bool.not_true, Bool.and_false, Bool.false_eq_true, if_false]
    rfl
  | cons c xs ih =>
    intro previous _
    obtain ⟨hquote, hbackslash⟩ := hxs c List.mem_cons_self
    have hrest := ih (fun x hx => hxs x (List.mem_cons_of_mem _ hx)) (some c)
      (fun heq => hbackslash (Option.some.inj heq))
    rw [List.cons_append, entries]
    simp only [hquote, decide_false, Bool.false_and, Bool.not_true, Bool.and_false,
      Bool.false_eq_true, if_false, hrest]

/-- An entry whose value stands in quotes up to its end. -/
theorem entries_append_quoted {xs ys : List Char} (hxs : ∀ c ∈ xs, c ≠ ';' ∧ c ≠ '"' ∧ c ≠ '\\')
    (hys : ∀ c ∈ ys, c ≠ '"' ∧ c ≠ '\\') :
    ∀ previous, previous ≠ some '\\' →
      entries false previous (xs ++ '"' :: (ys ++ ['"'])) = [xs ++ '"' :: (ys ++ ['"'])] := by
  induction xs with
  | nil =>
    intro previous hprevious
    have hrest := entries_quoted hys (some '"') (by decide)
    rw [List.nil_append, entries]
    simp only [hprevious, ne_eq, not_false_eq_true, decide_true, Bool.and_self, if_true,
      Bool.not_false, hrest]
    rfl
  | cons c xs ih =>
    intro previous _
    obtain ⟨hsemicolon, hquote, hbackslash⟩ := hxs c List.mem_cons_self
    have hrest := ih (fun x hx => hxs x (List.mem_cons_of_mem _ hx)) (some c)
      (fun heq => hbackslash (Option.some.inj heq))
    rw [List.cons_append, entries]
    simp only [hsemicolon, hquote, decide_false, Bool.false_and, Bool.false_eq_true, if_false,
      hrest]

theorem withoutBackslashes_eq (c : Char) {s : List Char} (hs : '\\' ∉ s) :
    withoutBackslashes c s = s := by
  induction s with
  | nil => rfl
  | cons x s ih =>
    have hx : x ≠ '\\' := fun heq => hs (heq ▸ List.mem_cons_self)
    have hrest := ih fun hmem => hs (List.mem_cons_of_mem _ hmem)
    rw [withoutBackslashes.eq_def]
    split
    · rename_i heq
      cases heq
      exact absurd rfl hx
    · rename_i heq
      cases heq
      rw [hrest]
    · rename_i heq
      cases heq

theorem unquote_token (h : IsTokenText b) : unquote ('"' :: (b ++ ['"'])) = b := by
  have hbackslash : '\\' ∉ b := fun hmem => absurd (h _ hmem) (by decide)
  have hlast : (b ++ ['"']).getLast? = some '"' := List.getLast?_concat
  have hdrop : (b ++ ['"']).dropLast = b := List.dropLast_concat
  simp only [unquote, hlast, if_true, hdrop, withoutBackslashes_eq _ hbackslash]

/-- Where no quotes are, none are taken away. -/
theorem unquote_eq_self (h : IsTokenText b) : unquote b = b := by
  cases b with
  | nil => rfl
  | cons c r =>
    have hc := h c List.mem_cons_self
    rw [unquote.eq_def]
    split
    · rename_i heq
      cases heq
      exact absurd hc (by decide)
    · rename_i heq
      cases heq
      exact absurd hc (by decide)
    · rfl

/-- Nothing is taken from the ends of a text that has no blanks there. -/
theorem stripBy_eq {x y : Char} (hx : Text.isBlank x = false) (hy : Text.isBlank y = false)
    (m : List Char) : Text.stripBy Text.isBlank (x :: (m ++ [y])) = x :: (m ++ [y]) := by
  refine Text.stripBy_eq_self hx ?_
  rw [← List.cons_append, List.getLast?_concat]
  exact hy

/-- **A parameter behind the first semicolon**, if what stands in front has another name. -/
theorem parameter?_quoted {name : String} (front key : List Char)
    (hfront : ∀ c ∈ front, c ≠ ';' ∧ c ≠ '"') (hother : (nameAndValue front).1 ≠ name.toList)
    (hkey : ∀ c ∈ key, c ≠ ';' ∧ c ≠ '"' ∧ c ≠ '\\' ∧ c ≠ '=')
    (hname : (Text.stripBy Text.isBlank key).map Char.toLower = name.toList)
    (h : IsTokenText b) :
    parameter? name (front ++ ';' :: (key ++ '=' :: '"' :: (b ++ ['"']))) = some b := by
  have hquotes : ∀ c ∈ b, c ≠ '"' ∧ c ≠ '\\' := by
    intro c hc
    have hnot := h.not_mem (s := ['"', '\\']) (forall_mem_of_all (by decide)) hc
    simpa only [List.mem_cons, List.not_mem_nil, or_false, not_or] using hnot
  have hsign : ∀ c ∈ key ++ ['='], c ≠ ';' ∧ c ≠ '"' ∧ c ≠ '\\' :=
    List.forall_mem_append.2 ⟨fun c hc => ⟨(hkey c hc).1, (hkey c hc).2.1, (hkey c hc).2.2.1⟩,
      List.forall_mem_singleton.2 (by decide)⟩
  have hentry : entries false none (key ++ '=' :: '"' :: (b ++ ['"'])) =
      [key ++ '=' :: '"' :: (b ++ ['"'])] := by
    have hquoted := entries_append_quoted hsign hquotes none (by decide)
    rwa [List.append_assoc, List.singleton_append] at hquoted
  have hspan : (key ++ '=' :: '"' :: (b ++ ['"'])).span (fun c => decide (c ≠ '=')) =
      (key, '=' :: '"' :: (b ++ ['"'])) := by
    have hinside : ∀ c ∈ key, decide (c ≠ '=') = true :=
      fun c hc => decide_eq_true (hkey c hc).2.2.2
    rw [List.span_eq_takeWhile_dropWhile, takeWhile_append_stop hinside rfl,
      dropWhile_append_stop hinside rfl]
  have hvalue : Text.stripBy Text.isBlank (('=' :: '"' :: (b ++ ['"'])).drop 1) =
      '"' :: (b ++ ['"']) :=
    stripBy_eq (by decide) (by decide) b
  have hsecond : nameAndValue (key ++ '=' :: '"' :: (b ++ ['"'])) =
      (name.toList, '"' :: (b ++ ['"'])) := by
    rw [nameAndValue, hspan]
    simp only [hvalue, hname]
  -- the text shows as two entries, and the parameter is the second
  rw [parameter?, entries_append hfront, hentry, List.map_cons, List.map_singleton, hsecond]
  simp only [List.find?_cons, hother, decide_false, decide_true, Option.map_some, unquote_token h]

/-- **The boundary.** -/
theorem parameter?_form (h : IsTokenText b) : parameter? "boundary" (formShown b) = some b :=
  parameter?_quoted "multipart/form-data".toList " boundary".toList
    (forall_mem_of_all (by decide +kernel)) (by decide +kernel)
    (forall_mem_of_all (by decide +kernel)) (by decide +kernel) h

end Shown

namespace Entity

/-- The header of a form. -/
def formFields (b : List Char) : List Field :=
  [⟨"content-type".toList, Glyphs.ofChars (formValue b)⟩]

theorem find?_formFields (b : List Char) :
    Field.find? (formFields b) "content-type" = some (Glyphs.ofChars (formValue b)) := by
  simp only [Field.find?, formFields, List.find?_cons, decide_true, Option.map_some]

/-- **A form has the type of a form**, -/
theorem typeOf_form (h : IsTokenText b) (hne : b ≠ []) (default : MediaType) :
    typeOf (formFields b) default = .ok formType := by
  rw [typeOf, find?_formFields]
  simp only [Field.mediaTypeShown_form h hne, Except.map, MediaType.ofShown_form]

/-- **and its boundary is found.** -/
theorem boundaryOf_form (h : IsTokenText b) (hne : b ≠ []) :
    boundaryOf (formFields b) = .ok (some b) := by
  -- the blanks at the end that the reader takes away are none here
  have htrim : (b.reverse.dropWhile Text.isBlank).reverse = b := by
    have hnone : ∀ c ∈ b.reverse, Text.isBlank c = false :=
      fun c hc => h.isBlank (List.mem_reverse.1 hc)
    cases hreverse : b.reverse with
    | nil => exact (List.reverse_eq_nil_iff.1 hreverse).symm
    | cons c r =>
      have hc := hnone c (hreverse ▸ List.mem_cons_self)
      rw [List.dropWhile_cons, hc, if_neg Bool.false_ne_true, ← hreverse, List.reverse_reverse]
  rw [boundaryOf, find?_formFields]
  simp only [Field.mediaTypeShown_form h hne, Except.map, Shown.parameter?_form h,
    Option.map_some, Shown.unquote_eq_self h, htrim]

end Entity

end Dataspace.Mime
