import Dataspace.Proofs.JsonScan
import Dataspace.Proofs.JsonText

/-!
# JSON that breaks off

An object of texts that was written as JSON cannot be read if its text breaks off, wherever that
is: inside a name, a value or an escape, or between them. The fault is one of syntax, never a number
that is too long.

* **`refused_characters`** — a quoted text without its closing quote.
* **`refused_members`** — the members of an object, by induction on the members.
* **`refused_read`**, **`refused_read_append`** — a whole text, and one with something behind it.
-/

namespace Dataspace.Json

variable {d : Dialect} {style : Style} {depth : Option Nat} {v : Json} {t : List Char}

/-! ## Texts -/

theorem insideFront_unitEscape {n : Nat} (h : n < 0x10000) : InsideFront (unitEscape n) := by
  obtain ⟨a, b, c, e, hhex, hunit⟩ := hexUnit?_hex h
  rw [unitEscape, hhex]
  exact fun r hr => .escaped 'u' (insideFront_of_hexUnit? hunit r hr)

theorem insideFront_codeEscape (c : Char) : InsideFront (codeEscape c) := by
  have hscalar := Text.toNat_scalar c
  unfold codeEscape
  simp only
  split
  · rename_i h
    exact insideFront_unitEscape h
  · exact (insideFront_unitEscape (by omega)).append (insideFront_unitEscape (by omega))

/-- However a character is written inside quotes, no quote is left to end the text. -/
theorem insideFront_escapeChar (style : Style) (c : Char) : InsideFront (escapeChar style c) := by
  unfold escapeChar
  repeat' split
  all_goals try exact fun r hr => .escaped _ hr
  · rename_i hquote hbackslash _ _ _ _ _ _
    exact fun r hr => .plain hquote hbackslash hr
  · exact insideFront_codeEscape c

theorem inside_flatMap (style : Style) (cs : List Char) :
    Inside (cs.flatMap (escapeChar style)) := by
  induction cs with
  | nil => exact .nil
  | cons c cs ih =>
    rw [List.flatMap_cons]
    exact insideFront_escapeChar style c _ ih

/-- The reader refuses its input for a flaw of syntax. -/
def Refused {α : Type} (result : Except Fault α) : Prop :=
  ∃ f, result = .error f ∧ f.flaw.IsSyntactic

theorem Refused.map {α β : Type} {result : Except Fault α} (h : Refused result) (g : α → β) :
    Refused (result.map g) := by
  obtain ⟨f, rfl, hf⟩ := h
  exact ⟨f, rfl, hf⟩

/-- **A quoted text needs its closing quote.** -/
theorem refused_characters {start : List Char} {fuel : Nat} {cs : List Char}
    (h : t <+: cs.flatMap (escapeChar style)) : Refused (characters d start fuel t) := by
  cases hread : characters d start fuel t with
  | error f => exact ⟨f, rfl, syntactic_characters hread⟩
  | ok found =>
    obtain ⟨inside, hinside, rfl⟩ := exists_inside_of_characters hread
    exact absurd h (Inside.not_front (inside_flatMap style cs) hinside)

/-! ## Members -/

theorem refused_value_nil (fuel : Nat) : Refused (value d fuel depth []) := by
  refine ⟨⟨.value, []⟩, ?_, True.intro⟩
  cases fuel <;> rfl

theorem refused_members_nil (fuel : Nat) : Refused (members d fuel depth []) := by
  cases fuel with
  | zero => exact ⟨_, rfl, True.intro⟩
  | succ fuel => exact ⟨_, rfl, True.intro⟩

/-- No text that breaks off is read as this value. -/
def RefusesFragments (d : Dialect) (style : Style) (depth : Option Nat) (v : Json) : Prop :=
  ∀ fuel t, t.length < fuel → t <+: writeChars style v → t ≠ writeChars style v →
    Refused (value d fuel depth t)

theorem refusesFragments_str (s : String) : RefusesFragments d style depth (.str s) := by
  intro fuel t hfuel h hne
  obtain ⟨fuel, rfl⟩ : ∃ k, fuel = k + 1 := ⟨fuel - 1, by omega⟩
  rw [writeChars, writeText, List.cons_append] at h hne
  cases t with
  | nil => exact refused_value_nil _
  | cons c t =>
    obtain ⟨rfl, htail⟩ := List.cons_prefix_cons.1 h
    have hinside := prefix_of_prefix_concat htail fun heq => hne (congrArg (List.cons _) heq)
    rw [value]
    exact (refused_characters hinside).map _

/-- What is read after blanks that may break off. -/
theorem skipBlanks_of_front {blanks more r : List Char} (hblanks : blanks.all isBlank = true)
    (hmore : ∃ c cs, more = c :: cs ∧ isBlank c = false) (h : r <+: blanks ++ more) :
    skipBlanks r <+: more ∧ (skipBlanks r).length ≤ r.length ∧
      (skipBlanks r = more → r = blanks ++ more) := by
  have hlength : (skipBlanks r).length ≤ r.length := (List.dropWhile_suffix _).length_le
  obtain ⟨c, cs, rfl, hc⟩ := hmore
  have hnil : ∀ s, s.all isBlank = true → skipBlanks s = [] := by
    intro s hs
    have hskip := skipBlanks_append hs []
    rw [List.append_nil] at hskip
    exact hskip
  rcases prefix_append_cases h with ⟨hr, -⟩ | ⟨r', rfl, hr⟩
  · have hall : r.all isBlank = true :=
      List.all_eq_true.2 fun x hx => List.all_eq_true.1 hblanks x (hr.subset hx)
    rw [hnil r hall]
    exact ⟨List.nil_prefix, Nat.zero_le _, fun heq => nomatch heq⟩
  · have hskip : skipBlanks (blanks ++ r') = r' := by
      rw [skipBlanks_append hblanks]
      cases r' with
      | nil => rfl
      | cons x r' =>
        rw [(List.cons_prefix_cons.1 hr).1]
        exact skipBlanks_cons hc r'
    rw [hskip] at hlength ⊢
    exact ⟨hr, hlength, fun heq => by rw [heq]⟩

/-- A member that breaks off. -/
theorem refused_memberText (hstyle : style.Faithful) {m : String × Json}
    (hfirst : Readable depth m.2) (hrefuses : RefusesFragments d style depth m.2) {fuel : Nat}
    (hfuel : t.length < fuel) (h : t <+: memberText style m) (hne : t ≠ memberText style m) :
    Refused (members d fuel depth t) := by
  obtain ⟨name, v⟩ := m
  obtain ⟨fuel, rfl⟩ : ∃ k, fuel = k + 1 := ⟨fuel - 1, by omega⟩
  obtain ⟨blanks, hcolon, hblanks⟩ := hstyle.colon
  obtain ⟨c, r, hc, hblank, -⟩ := hfirst.writeChars_eq_cons style
  have htext : memberText style (name, v) = '"' ::
      (name.toList.flatMap (escapeChar style) ++ ['"'] ++
        ':' :: (blanks ++ writeChars style v)) := by
    simp only [memberText, writeText, hcolon, List.cons_append, List.append_assoc, List.nil_append]
  rw [htext] at h hne
  cases t with
  | nil => exact refused_members_nil _
  | cons c t =>
    obtain ⟨rfl, htail⟩ := List.cons_prefix_cons.1 h
    rw [members]
    rcases prefix_append_cases htail with ⟨hname, hbroken⟩ | ⟨t, rfl, hbehind⟩
    · -- inside the name
      have hrefused : Refused (characters d ('"' :: t) fuel t) :=
        refused_characters (prefix_of_prefix_concat hname hbroken)
      obtain ⟨f, hread, hf⟩ := hrefused
      rw [hread]
      exact ⟨f, rfl, hf⟩
    · have hlength := length_le_length_flatMap style name.toList
      simp only [List.length_append, List.length_cons] at hfuel
      rw [List.append_assoc, List.singleton_append,
        characters_flatMap hstyle t name.toList (by omega)]
      cases t with
      | nil => exact ⟨_, rfl, True.intro⟩
      | cons c t =>
        -- behind the colon
        obtain ⟨rfl, hvalue⟩ := List.cons_prefix_cons.1 hbehind
        obtain ⟨hfront, hshort, hwhole⟩ := skipBlanks_of_front hblanks ⟨_, _, hc, hblank⟩ hvalue
        obtain ⟨f, hread, hf⟩ := hrefuses fuel (skipBlanks t) (by
          rw [List.length_cons] at hfuel
          omega) hfront fun heq => hne (by rw [hwhole heq])
        simp only [skipBlanks_cons (show isBlank ':' = false from rfl), hread]
        exact ⟨f, rfl, hf⟩

/-- **The members of an object need their closing brace.** The induction is on the members: the text
breaks off within the first, or behind it. -/
theorem refused_members (hstyle : style.Faithful) (ms : List (String × Json)) :
    ∀ (m : String × Json), (∀ p ∈ m :: ms, Readable depth p.2 ∧ ReadsBack d style depth p.2 ∧
        RefusesFragments d style depth p.2) →
      ∀ fuel t, t.length < fuel →
        t <+: joinWith style.comma.toList (writeMembers style (m :: ms)) →
        Refused (members d fuel depth t) := by
  induction ms with
  | nil =>
    intro m h fuel t hfuel hfront
    obtain ⟨hfirst, hreads, hrefuses⟩ := h m List.mem_cons_self
    change t <+: memberText style m at hfront
    by_cases heq : t = memberText style m
    · obtain ⟨fuel, rfl⟩ : ∃ k, fuel = k + 1 := ⟨fuel - 1, by omega⟩
      rw [heq] at hfuel
      have hread : members d (fuel + 1) depth (memberText style m ++ []) =
          afterMember d fuel depth m [] :=
        members_memberText hstyle hfirst hreads (Nat.le_of_lt_succ hfuel)
      rw [List.append_nil] at hread
      rw [heq, hread]
      exact ⟨_, rfl, True.intro⟩
    · exact refused_memberText hstyle hfirst hrefuses hfuel hfront heq
  | cons n ms ih =>
    intro m h fuel t hfuel hfront
    obtain ⟨hfirst, hreads, hrefuses⟩ := h m List.mem_cons_self
    obtain ⟨blanks, hcomma, hblanks⟩ := hstyle.comma
    have hmore := ih n fun p hp => h p (List.mem_cons_of_mem _ hp)
    simp only [writeMembers_cons, joinWith, hcomma, List.append_assoc, List.cons_append]
      at hfront hmore
    rcases prefix_append_cases hfront with ⟨hinside, hbroken⟩ | ⟨t, rfl, hbehind⟩
    · exact refused_memberText hstyle hfirst hrefuses hfuel hinside hbroken
    · obtain ⟨fuel, rfl⟩ : ∃ k, fuel = k + 1 := ⟨fuel - 1, by omega⟩
      rw [List.length_append] at hfuel
      rw [members_memberText hstyle hfirst hreads (by omega), afterMember]
      cases t with
      | nil => exact ⟨_, rfl, True.intro⟩
      | cons c t =>
        -- behind the comma the later members break off
        obtain ⟨rfl, hnext⟩ := List.cons_prefix_cons.1 hbehind
        obtain ⟨more, hjoin⟩ := joinWith_cons (',' :: blanks) (memberText style n)
          (writeMembers style ms)
        obtain ⟨r, hr⟩ := memberText_eq_cons style n
        obtain ⟨hlater, hshort, -⟩ := skipBlanks_of_front hblanks
          ⟨'"', r ++ more, by rw [hjoin, hr]; rfl, rfl⟩ hnext
        simp only [skipBlanks_cons (show isBlank ',' = false from rfl)]
        exact (hmore fuel (skipBlanks t) (by
          rw [List.length_cons] at hfuel
          omega) hlater).map _

/-! ## Objects -/

/-- Objects of texts, as the headers of messages are. -/
theorem refusesFragments_obj (hstyle : style.Faithful) {inside : Option Nat}
    (room : deeper depth = some inside) {ms : List (String × Json)}
    (h : ∀ p ∈ ms, ∃ s, p.2 = .str s) : RefusesFragments d style depth (.obj ms) := by
  intro fuel t hfuel hfront hne
  obtain ⟨fuel, rfl⟩ : ∃ k, fuel = k + 1 := ⟨fuel - 1, by omega⟩
  rw [writeChars, List.cons_append] at hfront hne
  cases t with
  | nil => exact refused_value_nil _
  | cons c t =>
    obtain ⟨rfl, htail⟩ := List.cons_prefix_cons.1 hfront
    have hmembers := prefix_of_prefix_concat htail fun heq => hne (congrArg (List.cons _) heq)
    rw [List.length_cons] at hfuel
    cases t with
    | nil =>
      have hread : value d (fuel + 1) depth ['{'] =
          (members d fuel inside []).map fun p => (.obj (Entries.merge p.1), p.2) := by
        rw [value, show skipBlanks [] = [] from rfl, room]
      rw [hread]
      exact (refused_members_nil fuel).map _
    | cons c t =>
      cases ms with
      | nil => exact absurd (List.prefix_nil.1 hmembers) (List.cons_ne_nil _ _)
      | cons m ms =>
        obtain ⟨more, hjoin⟩ := joinWith_cons style.comma.toList (memberText style m)
          (writeMembers style ms)
        obtain ⟨r, hr⟩ := memberText_eq_cons style m
        have hquote : c = '"' := by
          rw [writeMembers_cons, hjoin, hr] at hmembers
          exact (List.cons_prefix_cons.1 hmembers).1
        subst hquote
        rw [value_obj room]
        refine (refused_members hstyle ms m (fun p hp => ?_) fuel _ (by omega) hmembers).map _
        obtain ⟨s, hs⟩ := h p hp
        rw [hs]
        exact ⟨.str s, readsBack_str hstyle s, refusesFragments_str s⟩

/-! ## Whole texts -/

/-- **A text that breaks off is refused.** -/
theorem refused_read (hv : Readable d.depth v) (h : RefusesFragments d style d.depth v)
    (hfront : t <+: writeChars style v) (hne : t ≠ writeChars style v) : Refused (read d t) := by
  obtain ⟨c, r, htext, hblank, -⟩ := hv.writeChars_eq_cons style
  have hskip : skipBlanks t = t := by
    cases t with
    | nil => rfl
    | cons x t =>
      rw [htext] at hfront
      rw [(List.cons_prefix_cons.1 hfront).1]
      exact skipBlanks_cons hblank t
  obtain ⟨f, hread, hf⟩ := h (fuelFor t) t (by rw [fuelFor]; omega) hfront hne
  rw [read, hskip, hread]
  exact ⟨f, rfl, hf⟩

/-- A text with something else behind it is refused as well. -/
theorem refused_read_append (hstyle : style.Faithful) (hv : Readable d.depth v) {rest : List Char}
    (hrest : skipBlanks rest ≠ []) : Refused (read d (writeChars style v ++ rest)) := by
  obtain ⟨c, r, htext, hblank, -⟩ := hv.writeChars_eq_cons style
  have hskip : skipBlanks (writeChars style v ++ rest) = writeChars style v ++ rest := by
    rw [htext, List.cons_append, skipBlanks_cons hblank]
  have hvalue := hv.readsBack (d := d) hstyle (fuelFor (writeChars style v ++ rest)) rest (by
    rw [fuelFor, List.length_append]
    omega)
  rw [read, hskip, hvalue]
  simp only
  exact ⟨_, rfl, True.intro⟩

end Dataspace.Json
