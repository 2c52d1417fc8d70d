import Dataspace.Json.Reader
import Dataspace.Proofs.Basic
import Mathlib.Data.List.Infix

/-!
# The JSON reader goes forward

The reader of JSON passes characters from left to right. What it returns as the rest of its input
is an end of it, and inside quotes it stops at the first quote that no backslash stands before.

* **`Inside`** — the texts between quotes.
* **`exists_inside_of_characters`** — what the reader of a quoted text has passed.
* **`forward_readers`** — what the readers of values leave is an end of their input, and they
  complain about a long number, or about too many containers, only if the input holds such.
* **`holdsOf_of_read`** — the same for a whole text.
-/

namespace Dataspace.Json

variable {d : Dialect} {start s rest : List Char} {f : Fault}

/-! ## Quoted texts -/

/-- A text that can stand between quotes: every quote in it, and every backslash that a backslash
does not stand before, is the second of two characters of which the first is a backslash. -/
inductive Inside : List Char → Prop
  | nil : Inside []
  | plain {c : Char} {r : List Char} (hquote : c ≠ '"') (hbackslash : c ≠ '\\') (h : Inside r) :
    Inside (c :: r)
  | escaped (e : Char) {r : List Char} (h : Inside r) : Inside ('\\' :: e :: r)

/-- A piece that can be put in front of such texts. -/
def InsideFront (xs : List Char) : Prop :=
  ∀ r, Inside r → Inside (xs ++ r)

theorem InsideFront.append {xs ys : List Char} (hxs : InsideFront xs) (hys : InsideFront ys) :
    InsideFront (xs ++ ys) := by
  intro r hr
  rw [List.append_assoc]
  exact hxs _ (hys r hr)

theorem insideFront_of_forall {xs : List Char} (h : ∀ c ∈ xs, c ≠ '"' ∧ c ≠ '\\') :
    InsideFront xs := by
  intro r hr
  induction xs with
  | nil => exact hr
  | cons c xs ih =>
    obtain ⟨hquote, hbackslash⟩ := h c List.mem_cons_self
    exact .plain hquote hbackslash (ih fun x hx => h x (List.mem_cons_of_mem _ hx))

/-- **A quote ends such a text**, so that one text is no beginning of another with its quote. -/
theorem Inside.not_front {xs ys r : List Char} (hxs : Inside xs) (hys : Inside ys) :
    ¬ ys ++ '"' :: r <+: xs := by
  induction hxs generalizing ys with
  | nil =>
    intro h
    exact absurd (List.prefix_nil.1 h) (by simp)
  | plain hquote hbackslash _ ih =>
    intro h
    cases hys with
    | nil => exact hquote (List.cons_prefix_cons.1 h).1.symm
    | plain _ _ hys => exact ih hys (List.cons_prefix_cons.1 h).2
    | escaped e hys => exact hbackslash (List.cons_prefix_cons.1 h).1.symm
  | escaped e _ ih =>
    intro h
    cases hys with
    | nil => exact absurd (List.cons_prefix_cons.1 h).1 (by decide)
    | plain _ hbackslash hys => exact hbackslash (List.cons_prefix_cons.1 h).1
    | escaped e' hys => exact ih hys (List.cons_prefix_cons.1 (List.cons_prefix_cons.1 h).2).2

/-- Hexadecimal digits are neither quotes nor backslashes. -/
theorem ne_of_hexValue? {c : Char} (h : (Text.hexValue? c).isSome = true) : c ≠ '"' ∧ c ≠ '\\' := by
  constructor <;> rintro rfl <;> exact absurd h (by decide)

theorem insideFront_of_hexUnit? {a b c e : Char} {n : Nat} (h : hexUnit? a b c e = some n) :
    InsideFront [a, b, c, e] := by
  simp only [hexUnit?, Option.bind_eq_bind, Option.bind_eq_some_iff] at h
  obtain ⟨_, ha, _, hb, _, hc, _, he, -⟩ := h
  refine insideFront_of_forall fun x hx => ne_of_hexValue? ?_
  simp only [List.mem_cons, List.not_mem_nil, or_false] at hx
  rcases hx with rfl | rfl | rfl | rfl
  · rw [ha]; rfl
  · rw [hb]; rfl
  · rw [hc]; rfl
  · rw [he]; rfl

theorem loneUnit_eq_ok {x : Char} {faulty r : List Char}
    (h : loneUnit d faulty r = .ok (x, rest)) : rest = r := by
  unfold loneUnit at h
  split at h
  · exact (congrArg Prod.snd (Except.ok.inj h)).symm
  · cases h

theorem exists_front_of_secondUnit {n : Nat} {x : Char} {faulty : List Char}
    (h : secondUnit d n faulty s = .ok (x, rest)) :
    ∃ front, InsideFront front ∧ s = front ++ rest := by
  have hlone : ∀ {r : List Char}, loneUnit d faulty r = .ok (x, rest) →
      ∃ front, InsideFront front ∧ r = front ++ rest :=
    fun hok => ⟨[], fun _ hr => hr, (loneUnit_eq_ok hok).symm⟩
  unfold secondUnit at h
  split at h
  · rename_i a b c e r
    split at h
    · exact hlone h
    · split at h
      · cases h
      · rename_i hunit
        split at h
        · obtain ⟨-, rfl⟩ := Prod.mk.inj (Except.ok.inj h)
          refine ⟨['\\', 'u', a, b, c, e], fun r hr => .escaped 'u' ?_, rfl⟩
          exact insideFront_of_hexUnit? hunit r hr
        · exact hlone h
  · exact hlone h

/-- An escape by number passes the letter in front and a piece that has no quotes. -/
theorem exists_front_of_numberedEscape {x : Char} (h : numberedEscape d s = .ok (x, rest)) :
    ∃ u front, InsideFront front ∧ s = u :: (front ++ rest) := by
  unfold numberedEscape at h
  split at h
  · rename_i u a b c e r
    split at h
    · cases h
    · rename_i n hn
      have hunit : hexUnit? a b c e = some n := by
        split at hn
        · cases hn
        · exact hn
      have hfirst := insideFront_of_hexUnit? hunit
      split at h
      · obtain ⟨front, hfront, rfl⟩ := exists_front_of_secondUnit h
        exact ⟨u, _, hfirst.append hfront, rfl⟩
      · split at h
        · rw [loneUnit_eq_ok h]
          exact ⟨u, _, hfirst, rfl⟩
        · cases h
          exact ⟨u, _, hfirst, rfl⟩
  · cases h

/-- **A quoted text** is passed up to its closing quote. -/
theorem exists_inside_of_characters {fuel : Nat} {cs : List Char}
    (h : characters d start fuel s = .ok (cs, rest)) :
    ∃ inside, Inside inside ∧ s = inside ++ '"' :: rest := by
  induction fuel generalizing s cs with
  | zero => cases h
  | succ fuel ih =>
    cases s with
    | nil => cases h
    | cons c r =>
      rw [characters.eq_def] at h
      simp only at h
      split at h
      · rename_i hquote
        cases h
        exact ⟨[], .nil, hquote ▸ rfl⟩
      split at h
      · rename_i hbackslash
        subst hbackslash
        split at h
        · cases h
        · rename_i e r'
          split at h
          · split at h
            · cases h
            · -- an escape by number
              rename_i hread
              obtain ⟨⟨cs', after⟩, hrest, heq⟩ := map_eq_ok h
              cases heq
              obtain ⟨inside, hinside, hafter⟩ := ih hrest
              obtain ⟨u, front, hfront, hs⟩ := exists_front_of_numberedEscape hread
              rw [hs, hafter, ← List.append_assoc]
              exact ⟨'\\' :: u :: (front ++ inside), .escaped u (hfront _ hinside), rfl⟩
          · split at h
            · cases h
            · -- an escape by a letter
              obtain ⟨⟨cs', after⟩, hrest, heq⟩ := map_eq_ok h
              cases heq
              obtain ⟨inside, hinside, rfl⟩ := ih hrest
              exact ⟨_, .escaped e hinside, rfl⟩
      · rename_i hquote hbackslash
        split at h
        · cases h
        · obtain ⟨⟨cs', after⟩, hrest, heq⟩ := map_eq_ok h
          cases heq
          obtain ⟨inside, hinside, rfl⟩ := ih hrest
          exact ⟨_, .plain hquote hbackslash hinside, rfl⟩

/-! ## Flaws of quoted texts -/

/-- A flaw of the text itself, and not that a number is longer, or that containers stand deeper,
than the dialect reads. -/
def Flaw.IsSyntactic : Flaw → Prop
  | .digits _ => False
  | .depth => False
  | _ => True

theorem syntactic_secondUnit {n : Nat} {faulty : List Char}
    (h : secondUnit d n faulty s = .error f) : f.flaw.IsSyntactic := by
  unfold secondUnit loneUnit at h
  repeat' split at h
  all_goals cases h
  all_goals exact True.intro

theorem syntactic_numberedEscape (h : numberedEscape d s = .error f) : f.flaw.IsSyntactic := by
  unfold numberedEscape at h
  split at h
  · split at h
    · cases h
      exact True.intro
    · split at h
      · exact syntactic_secondUnit h
      · unfold loneUnit at h
        repeat' split at h
        all_goals cases h
        exact True.intro
  · cases h
    exact True.intro

theorem syntactic_characters {fuel : Nat} (h : characters d start fuel s = .error f) :
    f.flaw.IsSyntactic := by
  induction fuel generalizing s with
  | zero =>
    cases h
    exact True.intro
  | succ fuel ih =>
    cases s with
    | nil =>
      cases h
      exact True.intro
    | cons c r =>
      rw [characters.eq_def] at h
      simp only at h
      split at h
      · cases h
      split at h
      · split at h
        · cases h
          exact True.intro
        · split at h
          · split at h
            · rename_i hread
              cases h
              exact syntactic_numberedEscape hread
            · exact ih (map_eq_error h)
          · split at h
            · cases h
              exact True.intro
            · exact ih (map_eq_error h)
      · split at h
        · cases h
          exact True.intro
        · exact ih (map_eq_error h)

/-! ## Forward readers -/

/-- A run of so many digits, more than the dialect reads, stands somewhere in a text. -/
def HoldsRun (d : Dialect) (s : List Char) (n : Nat) : Prop :=
  exceeds d.digits n = true ∧
    ∃ digits, digits <:+: s ∧ (∀ c ∈ digits, isDigit c = true) ∧ digits.length = n

theorem HoldsRun.of_suffix {n : Nat} {t : List Char} (h : HoldsRun d t n) (hts : t <:+ s) :
    HoldsRun d s n := by
  obtain ⟨hlong, digits, hpiece, hdigits⟩ := h
  exact ⟨hlong, digits, hpiece.trans hts.isInfix, hdigits⟩

def isOpening (c : Char) : Bool :=
  c = '[' || c = '{'

/-- What a flaw says of the text that it was found in, where `depth` more containers may come: there
is a run of so many digits, or more containers are opened than may come. -/
def Flaw.HoldsOf (d : Dialect) (depth : Option Nat) (s : List Char) : Flaw → Prop
  | .digits n => HoldsRun d s n
  | .depth => ∃ n, depth = some n ∧ n < s.countP isOpening
  | _ => True

theorem Flaw.IsSyntactic.holdsOf {w : Flaw} {depth : Option Nat} (h : w.IsSyntactic) :
    w.HoldsOf d depth s := by
  cases w with
  | digits | depth => exact h.elim
  | _ => exact True.intro

theorem Flaw.HoldsOf.of_suffix {w : Flaw} {depth : Option Nat} {t : List Char}
    (h : w.HoldsOf d depth t) (hts : t <:+ s) : w.HoldsOf d depth s := by
  cases w with
  | digits n => exact HoldsRun.of_suffix h hts
  | depth =>
    obtain ⟨n, hdepth, hn⟩ := h
    exact ⟨n, hdepth, hn.trans_le (hts.sublist.countP_le)⟩
  | _ => exact True.intro

/-- Inside a container there is room for one container less. -/
theorem Flaw.HoldsOf.of_inside {w : Flaw} {depth inside : Option Nat} {c : Char} {t : List Char}
    (h : w.HoldsOf d inside t) (room : deeper depth = some inside) (hc : isOpening c = true) :
    w.HoldsOf d depth (c :: t) := by
  cases w with
  | depth =>
    obtain ⟨n, rfl, hn⟩ := h
    -- only a bound one above leaves this one inside
    obtain ⟨rfl⟩ : depth = some (n + 1) := by
      match depth with
      | none => cases room
      | some 0 => cases room
      | some (k + 1) => cases room; rfl
    exact ⟨n + 1, rfl, by rw [List.countP_cons_of_pos hc]; omega⟩
  | digits n => exact HoldsRun.of_suffix h (List.suffix_cons c t)
  | _ => exact True.intro

/-- What is to be known of a reader: it leaves an end of its input, and its complaint holds of its
input. -/
def Forward {α : Type} (d : Dialect) (depth : Option Nat) (s : List Char) :
    Except Fault (α × List Char) → Prop
  | .ok (_, rest) => rest <:+ s
  | .error f => f.flaw.HoldsOf d depth s

namespace Forward

variable {α β : Type} {depth inside : Option Nat} {result : Except Fault (α × List Char)}
  {t : List Char}

theorem of_suffix (h : Forward d depth t result) (hts : t <:+ s) : Forward d depth s result := by
  match result with
  | .ok (_, rest) => exact List.IsSuffix.trans h hts
  | .error f => exact Flaw.HoldsOf.of_suffix h hts

theorem of_inside (h : Forward d inside t result) (room : deeper depth = some inside) {c : Char}
    (hc : isOpening c = true) : Forward d depth (c :: t) result := by
  match result with
  | .ok (_, rest) => exact List.IsSuffix.trans h (List.suffix_cons c t)
  | .error f => exact Flaw.HoldsOf.of_inside h room hc

theorem of_syntactic (h : f.flaw.IsSyntactic) : Forward (α := α) d depth s (.error f) :=
  h.holdsOf

/-- There is no room for a container. -/
theorem of_full (hfull : deeper depth = none) {c : Char} (hc : isOpening c = true)
    (rest : List Char) : Forward (α := α) d depth (c :: s) (.error ⟨.depth, rest⟩) := by
  match depth with
  | none => cases hfull
  | some (n + 1) => cases hfull
  | some 0 => exact ⟨0, rfl, by rw [List.countP_cons_of_pos hc]; omega⟩

theorem map (h : Forward d depth s result) (g : α → β) :
    Forward d depth s (result.map fun found => (g found.1, found.2)) := by
  match result with
  | .ok (_, _) => exact h
  | .error _ => exact h

end Forward

theorem suffix_skipBlanks (s : List Char) : skipBlanks s <:+ s :=
  List.dropWhile_suffix _

/-- What stands behind a sign that blanks may precede. -/
theorem suffix_of_skipBlanks {c : Char} (h : skipBlanks s = c :: rest) : rest <:+ s :=
  (h ▸ List.suffix_cons c rest : rest <:+ skipBlanks s).trans (suffix_skipBlanks s)

theorem forward_characters (depth : Option Nat) (fuel : Nat) :
    Forward d depth s (characters d start fuel s) := by
  cases h : characters d start fuel s with
  | error f => exact .of_syntactic (syntactic_characters h)
  | ok found =>
    obtain ⟨cs, rest⟩ := found
    obtain ⟨inside, -, hs⟩ := exists_inside_of_characters h
    exact ⟨inside ++ ['"'], by rw [hs, List.append_assoc]; rfl⟩

/-! ## Numbers and words -/

theorem suffix_fraction (s : List Char) : (fraction s).2 <:+ s := by
  unfold fraction
  split
  · split
    · exact List.suffix_rfl
    · exact (List.dropWhile_suffix _).trans (List.suffix_cons _ _)
  · exact List.suffix_rfl

theorem suffix_exponent (s : List Char) : (exponent s).2 <:+ s := by
  unfold exponent
  split
  · rename_i c r
    split
    · split
      rename_i negative ds heq
      -- a sign may stand between the mark and the digits
      have hds : ds <:+ c :: r := by
        split at heq <;> cases heq
        · exact (List.suffix_cons _ _).trans (List.suffix_cons _ _)
        · exact (List.suffix_cons _ _).trans (List.suffix_cons _ _)
        · exact List.suffix_cons _ _
      split
      · exact List.suffix_rfl
      · exact (List.dropWhile_suffix _).trans hds
    · exact List.suffix_rfl
  · exact List.suffix_rfl

/-- A whole part is a run of digits in front. -/
theorem wholePart_eq_some {whole : List Char} (h : wholePart s = some (whole, rest)) :
    s = whole ++ rest ∧ ∀ c ∈ whole, isDigit c = true := by
  unfold wholePart at h
  split at h
  · cases h
    exact ⟨rfl, fun c hc => by rw [List.mem_singleton.1 hc]; rfl⟩
  · split at h
    · cases h
    · cases h
      exact ⟨List.takeWhile_append_dropWhile.symm,
        List.all_eq_true.1 List.all_takeWhile⟩

theorem forward_unsigned (depth : Option Nat) (negative : Bool) (s : List Char) :
    Forward d depth s (unsigned d negative start s) := by
  unfold unsigned
  split
  · exact .of_syntactic True.intro
  · rename_i whole r hwhole
    obtain ⟨hs, hdigits⟩ := wholePart_eq_some hwhole
    have hr : r <:+ s := ⟨whole, hs.symm⟩
    have hrest : (exponent (fraction r).2).2 <:+ s :=
      ((suffix_exponent _).trans (suffix_fraction _)).trans hr
    simp only
    split
    · rename_i hlong
      simp only [Bool.and_eq_true] at hlong
      exact ⟨hlong.1, whole, (hs ▸ List.prefix_append whole r).isInfix, hdigits, rfl⟩
    · split
      · exact hrest
      · exact hrest

theorem forward_atom (depth : Option Nat) (s : List Char) : Forward d depth s (atom d s) := by
  unfold atom
  split
  · rename_i found hfound
    obtain ⟨⟨word, v⟩, -, hword⟩ := List.exists_of_findSome?_eq_some hfound
    obtain ⟨r, hr, rfl⟩ := Option.map_eq_some_iff.1 hword
    unfold afterWord at hr
    split at hr
    · cases hr
      exact List.drop_suffix _ _
    · cases hr
  · split
    · exact (forward_unsigned depth true _).of_suffix (List.suffix_cons _ _)
    · exact forward_unsigned depth false _

/-! ## Values -/

/-- **The readers of values, items and members go forward**, by induction on the number of steps
that they may take. -/
theorem forward_readers (fuel : Nat) :
    (∀ depth s, Forward d depth s (value d fuel depth s)) ∧
      (∀ depth s, Forward d depth s (items d fuel depth s)) ∧
      ∀ depth s, Forward d depth s (members d fuel depth s) := by
  induction fuel with
  | zero =>
    refine ⟨fun depth s => ?_, fun depth s => ?_, fun depth s => ?_⟩
    all_goals exact .of_syntactic True.intro
  | succ fuel ih =>
    obtain ⟨hvalue, hitems, hmembers⟩ := ih
    refine ⟨fun depth s => ?_, fun depth s => ?_, fun depth s => ?_⟩
    · rw [value.eq_def]
      simp only
      split
      · exact ((forward_characters depth fuel).of_suffix (List.suffix_cons _ _)).map
          fun cs => Json.str (String.ofList cs)
      · rename_i r
        split
        · rename_i heq
          split
          · rename_i hfull
            simp only [Bool.and_eq_true, Option.isNone_iff_eq_none] at hfull
            exact .of_full hfull.2 rfl _
          · exact (suffix_of_skipBlanks heq).trans (List.suffix_cons _ _)
        · split
          · rename_i hfull
            exact .of_full hfull rfl _
          · rename_i inside room
            exact (((hitems inside _).of_suffix (suffix_skipBlanks r)).of_inside room rfl).map
              Json.arr
      · rename_i r
        split
        · rename_i heq
          split
          · rename_i hfull
            simp only [Bool.and_eq_true, Option.isNone_iff_eq_none] at hfull
            exact .of_full hfull.2 rfl _
          · exact (suffix_of_skipBlanks heq).trans (List.suffix_cons _ _)
        · split
          · rename_i hfull
            exact .of_full hfull rfl _
          · rename_i inside room
            exact (((hmembers inside _).of_suffix (suffix_skipBlanks r)).of_inside room rfl).map
              fun ms => Json.obj (Entries.merge ms)
      · exact forward_atom depth s
    · rw [items.eq_def]
      simp only
      have hfirst := hvalue depth s
      split
      · rename_i hread
        rw [hread] at hfirst
        exact hfirst
      · rename_i v r hread
        rw [hread] at hfirst
        split
        · rename_i heq
          exact (suffix_of_skipBlanks heq).trans hfirst
        · rename_i rest heq
          have hrest : skipBlanks rest <:+ s :=
            (suffix_skipBlanks rest).trans ((suffix_of_skipBlanks heq).trans hfirst)
          exact ((hitems _ _).of_suffix hrest).map fun vs => v :: vs
        · exact .of_syntactic True.intro
    · rw [members.eq_def]
      simp only
      split
      · rename_i r
        have hname : Forward d depth ('"' :: r) (characters d ('"' :: r) fuel r) :=
          (forward_characters depth fuel).of_suffix (List.suffix_cons _ _)
        split
        · rename_i hread
          rw [hread] at hname
          exact hname
        · rename_i name r' hread
          rw [hread] at hname
          split
          · -- the name and the colon are passed, so the value stands in an end of the input
            rename_i r'' heq
            have hcolon : skipBlanks r'' <:+ '"' :: r :=
              (suffix_skipBlanks r'').trans ((suffix_of_skipBlanks heq).trans hname)
            have hfirst := (hvalue depth (skipBlanks r'')).of_suffix hcolon
            split
            · rename_i hread'
              rw [hread'] at hfirst
              exact hfirst
            · rename_i v after hread'
              rw [hread'] at hfirst
              split
              · rename_i heq'
                exact (suffix_of_skipBlanks heq').trans hfirst
              · rename_i rest heq'
                have hrest : skipBlanks rest <:+ '"' :: r :=
                  (suffix_skipBlanks rest).trans ((suffix_of_skipBlanks heq').trans hfirst)
                exact ((hmembers _ _).of_suffix hrest).map fun ms => (String.ofList name, v) :: ms
              · exact .of_syntactic True.intro
          · exact .of_syntactic True.intro
      · exact .of_syntactic True.intro

/-- **What the reader of a whole text complains of holds of it.** -/
theorem holdsOf_of_read (h : read d s = .error f) : f.flaw.HoldsOf d d.depth s := by
  have hvalue := ((forward_readers (d := d) (fuelFor s)).1 d.depth (skipBlanks s)).of_suffix
    (suffix_skipBlanks s)
  unfold read at h
  split at h
  · rename_i hread
    cases h
    rw [hread] at hvalue
    exact hvalue
  · split at h
    · cases h
    · cases h
      exact True.intro

end Dataspace.Json
