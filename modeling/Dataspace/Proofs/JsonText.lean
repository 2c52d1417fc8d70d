import Dataspace.Json.Reader
import Dataspace.Json.Writer
import Dataspace.Proofs.Fields
import Dataspace.Proofs.Numerals

/-!
# Written JSON reads back

A value that was written in one of the styles is read back as it was, in every dialect that reads so
many containers inside each other. This holds of values made of nulls, texts, arrays and objects;
the documents and headers of this library are made of nothing else.

* **`characters_escapeChar`** — one character inside quotes, however it is escaped.
* **`characters_flatMap`** — a quoted text.
* **`Readable.readsBack`** — a value and any text after it.
* **`Readable.read_writeChars`** — a whole text.

The reader counts its steps down from a number that it takes from the length of the text. Every
value takes fewer steps than its text has characters, which is the bound that all lemmas here ask
for.
-/

namespace Dataspace.Json

/-! ## Styles -/

/-- A style that writes JSON: nothing but blanks after commas and colons, and no control character
as it is. -/
structure Style.Faithful (style : Style) : Prop where
  comma : ∃ blanks, style.comma.toList = ',' :: blanks ∧ blanks.all isBlank
  colon : ∃ blanks, style.colon.toList = ':' :: blanks ∧ blanks.all isBlank
  shows : ∀ c, style.shows c = true → 0x20 ≤ c.toNat

theorem Style.faithful_plain : Style.plain.Faithful where
  comma := ⟨[' '], rfl, rfl⟩
  colon := ⟨[' '], rfl, rfl⟩
  shows := by
    intro c h
    simp only [plain, Bool.and_eq_true, decide_eq_true_eq] at h
    exact h.1

theorem Style.faithful_compact : Style.compact.Faithful where
  comma := ⟨[], rfl, rfl⟩
  colon := ⟨[], rfl, rfl⟩
  shows := by
    intro c h
    simpa only [compact, decide_eq_true_eq] using h

/-! ## Characters -/

section Characters

variable {d : Dialect} {start s : List Char}

/-- An escape by a unit that is a character of its own. -/
theorem numberedEscape_unit {n : Nat} (hn : n < 0xD800 ∨ 0xE000 ≤ n) (hsize : n < 0x10000)
    (hs : s ≠ []) : numberedEscape d ('u' :: (Text.hex 4 n ++ s)) = .ok (Char.ofNat n, s) := by
  obtain ⟨a, b, c, e, hhex, hunit⟩ := hexUnit?_hex hsize
  -- something follows, as the reader asks for: at least the closing quote
  have hmore : s.isEmpty = false := List.isEmpty_eq_false_iff.2 hs
  have hhigh : isHighUnit n = false := by
    simp only [isHighUnit, Bool.and_eq_false_iff, decide_eq_false_iff_not]
    omega
  have hlow : isLowUnit n = false := by
    simp only [isLowUnit, Bool.and_eq_false_iff, decide_eq_false_iff_not]
    omega
  rw [hhex]
  simp only [List.cons_append, List.nil_append, numberedEscape, hmore, hunit, hhigh, hlow,
    Bool.false_eq_true, if_false]

/-- An escape by the two units of one character. -/
theorem numberedEscape_pair {m : Nat} (hm : m < 0x100000) (hs : s ≠ []) :
    numberedEscape d ('u' :: (Text.hex 4 (0xD800 + m / 0x400) ++
      (unitEscape (0xDC00 + m % 0x400) ++ s))) = .ok (Char.ofNat (0x10000 + m), s) := by
  obtain ⟨a, b, c, e, hhigh, hhighUnit⟩ := hexUnit?_hex (n := 0xD800 + m / 0x400) (by omega)
  obtain ⟨a', b', c', e', hlow, hlowUnit⟩ := hexUnit?_hex (n := 0xDC00 + m % 0x400) (by omega)
  have hmore : s.isEmpty = false := List.isEmpty_eq_false_iff.2 hs
  have hisHigh : isHighUnit (0xD800 + m / 0x400) = true := by
    simp only [isHighUnit, Bool.and_eq_true, decide_eq_true_eq]
    omega
  have hisLow : isLowUnit (0xDC00 + m % 0x400) = true := by
    simp only [isLowUnit, Bool.and_eq_true, decide_eq_true_eq]
    omega
  -- the two units hold the upper and the lower ten digits of the number
  have hnumber : 0x10000 + (0xD800 + m / 0x400 - 0xD800) * 0x400 + (0xDC00 + m % 0x400 - 0xDC00) =
      0x10000 + m := by
    omega
  rw [hhigh, unitEscape, hlow]
  simp only [List.cons_append, List.nil_append, numberedEscape, secondUnit, List.isEmpty_cons,
    hhighUnit, hlowUnit, hisHigh, hisLow, hmore, hnumber, Bool.false_eq_true, if_false, if_true]

/-- The number of a character, whatever number of units it takes. -/
theorem numberedEscape_codeEscape (c : Char) (hs : s ≠ []) :
    ∃ r, codeEscape c ++ s = '\\' :: 'u' :: r ∧ numberedEscape d ('u' :: r) = .ok (c, s) := by
  have hscalar := Text.toNat_scalar c
  unfold codeEscape
  -- the halves of two-unit characters are no characters, so a single unit is none of them
  by_cases hsize : c.toNat < 0x10000
  · refine ⟨Text.hex 4 c.toNat ++ s, by simp only [hsize, if_true]; rfl, ?_⟩
    rw [numberedEscape_unit (by omega) hsize hs, Char.ofNat_toNat]
  · have hm : c.toNat - 0x10000 < 0x100000 := by omega
    have hsum : 0x10000 + (c.toNat - 0x10000) = c.toNat := by omega
    refine ⟨_, by simp only [hsize, if_false, List.append_assoc]; rfl, ?_⟩
    refine (numberedEscape_pair hm hs).trans ?_
    rw [hsum, Char.ofNat_toNat]

/-- A character that was escaped by a letter. -/
theorem characters_simpleEscape {e c : Char} (he : e ≠ 'u') (h : simpleEscape? e = some c)
    (fuel : Nat) :
    characters d start (fuel + 1) ('\\' :: e :: s) =
      (characters d start fuel s).map fun (cs, after) => (c :: cs, after) := by
  rw [characters]
  simp only [show ('\\' : Char) ≠ '"' by decide, he, h, if_false, if_true]

/-- **One character.** However a style writes a character inside quotes, it is read as itself. -/
theorem characters_escapeChar {style : Style} (hstyle : style.Faithful) (c : Char) (hs : s ≠ [])
    (fuel : Nat) :
    characters d start (fuel + 1) (escapeChar style c ++ s) =
      (characters d start fuel s).map fun (cs, after) => (c :: cs, after) := by
  have hnumber : ∀ n (x : Char), c.toNat = n → x.toNat = n → c = x := fun n x hc hx =>
    Char.toNat_inj.1 (hc.trans hx.symm)
  unfold escapeChar
  -- seven characters have a letter of their own
  split
  · rename_i h; subst h; exact characters_simpleEscape (by decide) rfl fuel
  split
  · rename_i h; subst h; exact characters_simpleEscape (by decide) rfl fuel
  split
  · rename_i h; subst h; exact characters_simpleEscape (by decide) rfl fuel
  split
  · rename_i h; subst h; exact characters_simpleEscape (by decide) rfl fuel
  split
  · rename_i h; subst h; exact characters_simpleEscape (by decide) rfl fuel
  split
  · rename_i h
    rw [hnumber _ '\x08' h rfl]
    exact characters_simpleEscape (by decide) rfl fuel
  split
  · rename_i h
    rw [hnumber _ '\x0c' h rfl]
    exact characters_simpleEscape (by decide) rfl fuel
  split
  · -- the character stands there as it is
    rename_i hquote hbackslash _ _ _ _ _ hshown
    have hcontrol : ¬ c.toNat < 0x20 := Nat.not_lt.2 (hstyle.shows c hshown)
    rw [List.singleton_append, characters.eq_def]
    simp only [hquote, hbackslash, hcontrol, if_false]
  · -- its number does
    obtain ⟨r, htext, hread⟩ := numberedEscape_codeEscape (d := d) c hs
    rw [htext, characters]
    simp only [show ('\\' : Char) ≠ '"' by decide, hread, if_false, if_true]

/-- **A quoted text** is read up to its closing quote. -/
theorem characters_flatMap {style : Style} (hstyle : style.Faithful) (rest : List Char)
    (cs : List Char) : ∀ {fuel : Nat}, cs.length < fuel →
      characters d start fuel (cs.flatMap (escapeChar style) ++ '"' :: rest) = .ok (cs, rest) := by
  induction cs with
  | nil =>
    intro fuel h
    obtain ⟨fuel, rfl⟩ : ∃ k, fuel = k + 1 := ⟨fuel - 1, by omega⟩
    rfl
  | cons c cs ih =>
    intro fuel h
    obtain ⟨fuel, rfl⟩ : ∃ k, fuel = k + 1 := ⟨fuel - 1, by omega⟩
    have hfuel : cs.length < fuel := by
      rw [List.length_cons] at h
      omega
    -- one step takes one character, however many signs its escape has
    rw [List.flatMap_cons, List.append_assoc, characters_escapeChar hstyle c (by simp), ih hfuel]
    rfl

end Characters

/-! ## Values -/

/-- Values that can be read back: nulls, texts, and arrays and objects of such values. The names of
an object are distinct, and the containers have room inside each other. -/
inductive Readable : (depth : Option Nat) → Json → Prop
  | null {depth : Option Nat} : Readable depth .null
  | str {depth : Option Nat} (s : String) : Readable depth (.str s)
  | arr {depth inside : Option Nat} {items : List Json} (room : deeper depth = some inside)
      (readable : ∀ v ∈ items, Readable inside v) : Readable depth (.arr items)
  | obj {depth inside : Option Nat} {members : List (String × Json)}
      (room : deeper depth = some inside) (readable : ∀ p ∈ members, Readable inside p.2)
      (distinct : (members.map Prod.fst).Nodup) : Readable depth (.obj members)

section Values

variable {d : Dialect} {style : Style} {depth : Option Nat} {v : Json}

/-- The value is read from its text, whatever follows. -/
def ReadsBack (d : Dialect) (style : Style) (depth : Option Nat) (v : Json) : Prop :=
  ∀ (fuel : Nat) (rest : List Char), (writeChars style v).length ≤ fuel →
    value d fuel depth (writeChars style v ++ rest) = .ok (v, rest)

/-- The text of such a value begins with a sign that is neither blank nor the end of an array. -/
theorem Readable.writeChars_eq_cons (h : Readable depth v) (style : Style) :
    ∃ c r, writeChars style v = c :: r ∧ isBlank c = false ∧ c ≠ ']' := by
  cases h with
  | null => exact ⟨'n', _, rfl, rfl, by decide⟩
  | str s => exact ⟨'"', _, by rw [writeChars, writeText]; rfl, rfl, by decide⟩
  | arr _ _ => exact ⟨'[', _, by rw [writeChars]; rfl, rfl, by decide⟩
  | obj _ _ _ => exact ⟨'{', _, by rw [writeChars]; rfl, rfl, by decide⟩

theorem skipBlanks_append {blanks : List Char} (h : blanks.all isBlank = true) (s : List Char) :
    skipBlanks (blanks ++ s) = skipBlanks s :=
  List.dropWhile_append_of_pos fun c hc => List.all_eq_true.1 h c hc

theorem skipBlanks_cons {c : Char} (h : isBlank c = false) (s : List Char) :
    skipBlanks (c :: s) = c :: s := by
  rw [skipBlanks, List.dropWhile_cons, h]
  rfl

/-- A joined text begins with its first piece. -/
theorem joinWith_cons (separator piece : List Char) (pieces : List (List Char)) :
    ∃ more, joinWith separator (piece :: pieces) = piece ++ more := by
  cases pieces with
  | nil => exact ⟨[], (List.append_nil piece).symm⟩
  | cons next pieces =>
    exact ⟨separator ++ joinWith separator (next :: pieces), List.append_assoc piece separator _⟩

theorem escapeChar_ne_nil (style : Style) (c : Char) : escapeChar style c ≠ [] := by
  obtain ⟨r, hcode, -⟩ := numberedEscape_codeEscape (d := .unlimited) c (List.cons_ne_nil 'x' [])
  unfold escapeChar
  repeat' split
  all_goals try exact List.cons_ne_nil _ _
  -- only the escape by number is no list that shows its first sign
  intro hnil
  rw [hnil] at hcode
  cases hcode

/-- Every character takes at least one in the text. -/
theorem length_le_length_flatMap (style : Style) (cs : List Char) :
    cs.length ≤ (cs.flatMap (escapeChar style)).length := by
  induction cs with
  | nil => exact Nat.le_refl _
  | cons c cs ih =>
    have hpos : 0 < (escapeChar style c).length :=
      List.length_pos_iff.2 (escapeChar_ne_nil style c)
    rw [List.flatMap_cons, List.length_append, List.length_cons]
    omega

theorem readsBack_str (hstyle : style.Faithful) (s : String) :
    ReadsBack d style depth (.str s) := by
  intro fuel rest hfuel
  have hlength := length_le_length_flatMap style s.toList
  simp only [writeChars, writeText, List.length_append, List.length_cons, List.length_nil] at hfuel
  obtain ⟨fuel, rfl⟩ : ∃ k, fuel = k + 1 := ⟨fuel - 1, by omega⟩
  have htext : writeChars style (.str s) ++ rest =
      '"' :: (s.toList.flatMap (escapeChar style) ++ '"' :: rest) := by
    rw [writeChars, writeText]
    simp only [List.cons_append, List.append_assoc, List.nil_append]
  have hread : characters d ('"' :: (s.toList.flatMap (escapeChar style) ++ '"' :: rest)) fuel
      (s.toList.flatMap (escapeChar style) ++ '"' :: rest) = .ok (s.toList, rest) :=
    characters_flatMap hstyle rest s.toList (by omega)
  rw [htext, value, hread]
  simp only [Except.map, String.ofList_toList]

/-- The items of an array are read up to its closing bracket. -/
theorem items_joinWith (hstyle : style.Faithful) (rest : List Char) (vs : List Json) :
    ∀ (v : Json), (∀ w ∈ v :: vs, Readable depth w ∧ ReadsBack d style depth w) →
      ∀ fuel,
        (joinWith style.comma.toList (writeItems style (v :: vs))).length < fuel →
        items d fuel depth
            (joinWith style.comma.toList (writeItems style (v :: vs)) ++ ']' :: rest) =
          .ok (v :: vs, rest) := by
  induction vs with
  | nil =>
    intro v h fuel hfuel
    obtain ⟨fuel, rfl⟩ : ∃ k, fuel = k + 1 := ⟨fuel - 1, by omega⟩
    simp only [writeItems, joinWith] at hfuel ⊢
    have hvalue := (h v List.mem_cons_self).2 fuel (']' :: rest) (by omega)
    rw [items, hvalue]
    simp only [skipBlanks_cons (show isBlank ']' = false from rfl)]
  | cons w vs ih =>
    intro v h fuel hfuel
    obtain ⟨blanks, hcomma, hblanks⟩ := hstyle.comma
    obtain ⟨fuel, rfl⟩ : ∃ k, fuel = k + 1 := ⟨fuel - 1, by omega⟩
    have hmore := ih w (fun u hu => h u (List.mem_cons_of_mem _ hu)) fuel
    have hfirst := (h w (List.mem_cons_of_mem _ List.mem_cons_self)).1
    simp only [writeItems, joinWith, hcomma, List.length_append, List.length_cons] at hfuel hmore ⊢
    -- the text of the later items, as a whole and from its first character on
    obtain ⟨more, hjoin⟩ := joinWith_cons (',' :: blanks) (writeChars style w)
      (writeItems style vs)
    obtain ⟨c, r, hc, hblank, -⟩ := hfirst.writeChars_eq_cons style
    have hskip : skipBlanks (blanks ++
        (joinWith (',' :: blanks) (writeChars style w :: writeItems style vs) ++ ']' :: rest)) =
        joinWith (',' :: blanks) (writeChars style w :: writeItems style vs) ++ ']' :: rest := by
      rw [skipBlanks_append hblanks, hjoin, hc, List.cons_append, List.cons_append,
        skipBlanks_cons hblank]
    have hvalue := (h v List.mem_cons_self).2 fuel
      (',' :: (blanks ++ (joinWith (',' :: blanks) (writeChars style w :: writeItems style vs) ++
        ']' :: rest))) (by omega)
    simp only [List.append_assoc, List.cons_append] at hvalue ⊢
    rw [items, hvalue]
    simp only [skipBlanks_cons (show isBlank ',' = false from rfl), hskip]
    rw [hmore (by omega)]
    rfl

/-- The text of a member: its name, a colon and its value. -/
def memberText (style : Style) (m : String × Json) : List Char :=
  writeText style m.1 ++ style.colon.toList ++ writeChars style m.2

theorem writeMembers_cons (m : String × Json) (ms : List (String × Json)) :
    writeMembers style (m :: ms) = memberText style m :: writeMembers style ms := rfl

theorem memberText_eq_cons (style : Style) (m : String × Json) :
    ∃ r, memberText style m = '"' :: r := by
  rw [memberText, writeText]
  exact ⟨_, rfl⟩

/-- What is made of a member that was read: the sign after it tells whether another one follows. -/
def afterMember (d : Dialect) (fuel : Nat) (depth : Option Nat) (m : String × Json)
    (after : List Char) : Except Fault (List (String × Json) × List Char) :=
  match skipBlanks after with
  | '}' :: rest => .ok ([m], rest)
  | ',' :: rest => (members d fuel depth (skipBlanks rest)).map fun (ms, after) => (m :: ms, after)
  | r' => .error ⟨.comma, r'⟩

/-- A member is read up to the sign after it. -/
theorem members_memberText (hstyle : style.Faithful) {m : String × Json}
    (hfirst : Readable depth m.2) (hreads : ReadsBack d style depth m.2) {fuel : Nat}
    {after : List Char} (hfuel : (memberText style m).length ≤ fuel) :
    members d (fuel + 1) depth (memberText style m ++ after) =
      afterMember d fuel depth m after := by
  obtain ⟨name, v⟩ := m
  simp only at hfirst hreads
  obtain ⟨blanks, hcolon, hblanks⟩ := hstyle.colon
  obtain ⟨c, r, hc, hblank, -⟩ := hfirst.writeChars_eq_cons style
  have hlength := length_le_length_flatMap style name.toList
  have htext : memberText style (name, v) ++ after =
      '"' :: (name.toList.flatMap (escapeChar style) ++
        '"' :: ':' :: (blanks ++ (writeChars style v ++ after))) := by
    simp only [memberText, writeText, hcolon, List.cons_append, List.append_assoc, List.nil_append]
  simp only [memberText, writeText, hcolon, List.length_append, List.length_cons,
    List.length_nil] at hfuel
  have hname : characters d ('"' :: (name.toList.flatMap (escapeChar style) ++
      '"' :: ':' :: (blanks ++ (writeChars style v ++ after)))) fuel
        (name.toList.flatMap (escapeChar style) ++
          '"' :: ':' :: (blanks ++ (writeChars style v ++ after))) =
      .ok (name.toList, ':' :: (blanks ++ (writeChars style v ++ after))) :=
    characters_flatMap hstyle _ name.toList (by omega)
  -- the blanks that the style puts after the colon are skipped, and no more than these
  have hskip : skipBlanks (blanks ++ (writeChars style v ++ after)) =
      writeChars style v ++ after := by
    rw [skipBlanks_append hblanks, hc, List.cons_append, skipBlanks_cons hblank]
  have hvalue := hreads fuel after (by omega)
  rw [htext, members, hname]
  simp only [skipBlanks_cons (show isBlank ':' = false from rfl), hskip, hvalue,
    String.ofList_toList]
  rfl

/-- The members of an object are read up to its closing brace. -/
theorem members_joinWith (hstyle : style.Faithful) (rest : List Char)
    (ms : List (String × Json)) :
    ∀ (m : String × Json), (∀ p ∈ m :: ms, Readable depth p.2 ∧ ReadsBack d style depth p.2) →
      ∀ fuel,
        (joinWith style.comma.toList (writeMembers style (m :: ms))).length < fuel →
        members d fuel depth
            (joinWith style.comma.toList (writeMembers style (m :: ms)) ++ '}' :: rest) =
          .ok (m :: ms, rest) := by
  induction ms with
  | nil =>
    intro m h fuel hfuel
    obtain ⟨fuel, rfl⟩ : ∃ k, fuel = k + 1 := ⟨fuel - 1, by omega⟩
    obtain ⟨hfirst, hreads⟩ := h m List.mem_cons_self
    rw [show joinWith style.comma.toList (writeMembers style [m]) = memberText style m from rfl]
      at hfuel ⊢
    rw [members_memberText hstyle hfirst hreads (by omega), afterMember]
    simp only [skipBlanks_cons (show isBlank '}' = false from rfl)]
  | cons n ms ih =>
    intro m h fuel hfuel
    obtain ⟨blanks, hcomma, hblanks⟩ := hstyle.comma
    obtain ⟨fuel, rfl⟩ : ∃ k, fuel = k + 1 := ⟨fuel - 1, by omega⟩
    obtain ⟨hfirst, hreads⟩ := h m List.mem_cons_self
    have hmore := ih n (fun p hp => h p (List.mem_cons_of_mem _ hp)) fuel
    simp only [writeMembers_cons, joinWith, hcomma, List.length_append, List.length_cons]
      at hfuel hmore ⊢
    -- the text of the later members, as a whole and from its quote on
    obtain ⟨more, hjoin⟩ := joinWith_cons (',' :: blanks) (memberText style n)
      (writeMembers style ms)
    obtain ⟨r, hr⟩ := memberText_eq_cons style n
    have hskip : skipBlanks (blanks ++
        (joinWith (',' :: blanks) (memberText style n :: writeMembers style ms) ++ '}' :: rest)) =
        joinWith (',' :: blanks) (memberText style n :: writeMembers style ms) ++ '}' :: rest := by
      rw [skipBlanks_append hblanks, hjoin, hr, List.cons_append, List.cons_append,
        skipBlanks_cons rfl]
    simp only [List.append_assoc, List.cons_append]
    rw [members_memberText hstyle hfirst hreads (by omega), afterMember]
    simp only [skipBlanks_cons (show isBlank ',' = false from rfl), hskip]
    rw [hmore (by omega)]
    rfl

/-- A container that holds nothing is read wherever there is room for one more. -/
theorem value_arr_nil {inside : Option Nat} (room : deeper depth = some inside) (rest : List Char)
    (fuel : Nat) : value d (fuel + 1) depth ('[' :: ']' :: rest) = .ok (.arr [], rest) := by
  rw [value, skipBlanks_cons rfl, room]
  exact if_neg (by rw [Option.isNone_some, Bool.and_false]; exact Bool.false_ne_true)

theorem value_obj_nil {inside : Option Nat} (room : deeper depth = some inside) (rest : List Char)
    (fuel : Nat) : value d (fuel + 1) depth ('{' :: '}' :: rest) = .ok (.obj [], rest) := by
  rw [value, skipBlanks_cons rfl, room]
  exact if_neg (by rw [Option.isNone_some, Bool.and_false]; exact Bool.false_ne_true)

/-- A container that is not empty: what stands inside its bracket goes on to the items. -/
theorem value_arr {inside : Option Nat} (room : deeper depth = some inside) {s : List Char}
    {c : Char} {r : List Char} (hs : s = c :: r) (hblank : isBlank c = false) (hc : c ≠ ']')
    (fuel : Nat) :
    value d (fuel + 1) depth ('[' :: s) =
      (items d fuel inside s).map fun (vs, rest) => (.arr vs, rest) := by
  subst hs
  rw [value, skipBlanks_cons hblank]
  -- an array that ends at once is a case of its own, which `hc` excludes
  split
  · rename_i heq
    cases heq
    exact absurd rfl hc
  · rw [room]

theorem value_obj {inside : Option Nat} (room : deeper depth = some inside) {r : List Char}
    (fuel : Nat) :
    value d (fuel + 1) depth ('{' :: '"' :: r) =
      (members d fuel inside ('"' :: r)).map fun (ms, rest) => (.obj (Entries.merge ms), rest) := by
  rw [value, skipBlanks_cons rfl, room]
  rfl

/-- **Values.** A value that can be read back is read from its text, whatever follows. The induction
is on the value; each container reads its parts one container deeper. -/
theorem Readable.readsBack (hstyle : style.Faithful) (h : Readable depth v) :
    ReadsBack d style depth v := by
  induction h with
  | null =>
    intro fuel rest hfuel
    have hlength : (writeChars style .null).length = 4 := rfl
    obtain ⟨fuel, rfl⟩ : ∃ k, fuel = k + 1 := ⟨fuel - 1, by omega⟩
    rfl
  | str s => exact readsBack_str hstyle s
  | @arr depth inside vs room readable ih =>
    intro fuel rest hfuel
    rw [writeChars] at hfuel ⊢
    simp only [List.length_append, List.length_cons, List.length_nil] at hfuel
    obtain ⟨fuel, rfl⟩ : ∃ k, fuel = k + 1 := ⟨fuel - 1, by omega⟩
    cases vs with
    | nil => exact value_arr_nil room rest fuel
    | cons w ws =>
      -- the bracket takes one step, which is what is left for the items inside
      have hitems := items_joinWith (d := d) hstyle rest ws w
        (fun u hu => ⟨readable u hu, ih u hu⟩) fuel (by omega)
      obtain ⟨more, hjoin⟩ := joinWith_cons style.comma.toList (writeChars style w)
        (writeItems style ws)
      obtain ⟨c, r, hw, hblank, hc⟩ :=
        (readable w List.mem_cons_self).writeChars_eq_cons style
      have htext : joinWith style.comma.toList (writeItems style (w :: ws)) ++ ']' :: rest =
          c :: (r ++ more ++ ']' :: rest) := by
        rw [writeItems, hjoin, hw]
        rfl
      rw [List.cons_append, List.cons_append, List.append_assoc, List.singleton_append,
        value_arr room htext hblank hc, hitems]
      rfl
  | @obj depth inside ms room readable distinct ih =>
    intro fuel rest hfuel
    rw [writeChars] at hfuel ⊢
    simp only [List.length_append, List.length_cons, List.length_nil] at hfuel
    obtain ⟨fuel, rfl⟩ : ∃ k, fuel = k + 1 := ⟨fuel - 1, by omega⟩
    cases ms with
    | nil => exact value_obj_nil room rest fuel
    | cons m ms =>
      have hmembers := members_joinWith (d := d) hstyle rest ms m
        (fun p hp => ⟨readable p hp, ih p hp⟩) fuel (by omega)
      obtain ⟨more, hjoin⟩ := joinWith_cons style.comma.toList (memberText style m)
        (writeMembers style ms)
      obtain ⟨r, hm⟩ := memberText_eq_cons style m
      have htext : joinWith style.comma.toList (writeMembers style (m :: ms)) ++ '}' :: rest =
          '"' :: (r ++ more ++ '}' :: rest) := by
        rw [writeMembers_cons, hjoin, hm]
        rfl
      rw [htext] at hmembers
      rw [List.cons_append, List.cons_append, List.append_assoc, List.singleton_append, htext,
        value_obj room, hmembers]
      -- the names are distinct, so no member takes the place of another
      simp only [Except.map, Entries.merge_of_distinct distinct]

/-- **Whole texts.** What is written is read back. -/
theorem Readable.read_writeChars (hstyle : style.Faithful) (h : Readable d.depth v) :
    read d (writeChars style v) = .ok v := by
  obtain ⟨c, r, hv, hblank, -⟩ := h.writeChars_eq_cons style
  have hskip : skipBlanks (writeChars style v) = writeChars style v := by
    rw [hv, skipBlanks_cons hblank]
  have hvalue := h.readsBack (d := d) hstyle (fuelFor (writeChars style v)) [] (by
    rw [fuelFor]
    omega)
  rw [List.append_nil] at hvalue
  rw [read, hskip, hvalue]
  rfl

end Values

/-! ## The plain style shows ASCII -/

/-- A character of ASCII that has a visible form. -/
def Printable (c : Char) : Prop :=
  0x20 ≤ c.toNat ∧ c.toNat < 0x7F

instance (c : Char) : Decidable (Printable c) :=
  inferInstanceAs (Decidable (_ ∧ _))

theorem printable_hex (width : Nat) : ∀ n, ∀ c ∈ Text.hex width n, Printable c := by
  have hdigit : ∀ n < 16, Printable (Text.hexDigit n) := by decide
  induction width with
  | zero =>
    intro n c hc
    cases hc
  | succ width ih =>
    intro n c hc
    rcases List.mem_append.1 hc with hc | hc
    · exact ih _ c hc
    · rw [List.mem_singleton.1 hc]
      exact hdigit _ (Nat.mod_lt n (by decide))

theorem printable_unitEscape {n : Nat} {c : Char} (hc : c ∈ unitEscape n) : Printable c := by
  rw [unitEscape, List.mem_cons, List.mem_cons] at hc
  rcases hc with rfl | rfl | hc
  · decide
  · decide
  · exact printable_hex 4 n c hc

theorem printable_escapeChar (x : Char) : ∀ c ∈ escapeChar .plain x, Printable c := by
  intro c hc
  unfold escapeChar at hc
  repeat' split at hc
  -- the escapes by a letter are two printable signs
  all_goals try
    simp only [List.mem_cons, List.not_mem_nil, or_false] at hc
    rcases hc with rfl | rfl <;> decide
  · rename_i hshown
    rw [List.mem_singleton.1 hc]
    simp only [Style.plain, Bool.and_eq_true, decide_eq_true_eq] at hshown
    exact hshown
  · unfold codeEscape at hc
    simp only at hc
    split at hc
    · exact printable_unitEscape hc
    · rcases List.mem_append.1 hc with hc | hc
      · exact printable_unitEscape hc
      · exact printable_unitEscape hc

theorem printable_writeText (s : String) : ∀ c ∈ writeText .plain s, Printable c := by
  intro c hc
  rw [writeText, List.cons_append, List.mem_cons, List.mem_append, List.mem_singleton] at hc
  rcases hc with rfl | hc | rfl
  · decide
  · obtain ⟨x, -, hx⟩ := List.mem_flatMap.1 hc
    exact printable_escapeChar x c hx
  · decide

theorem mem_joinWith {separator : List Char} {pieces : List (List Char)} {c : Char}
    (hc : c ∈ joinWith separator pieces) : c ∈ separator ∨ ∃ piece ∈ pieces, c ∈ piece := by
  induction pieces with
  | nil => cases hc
  | cons piece pieces ih =>
    cases pieces with
    | nil => exact .inr ⟨piece, List.mem_cons_self, hc⟩
    | cons next pieces =>
      change c ∈ piece ++ separator ++ joinWith separator (next :: pieces) at hc
      rw [List.mem_append, List.mem_append] at hc
      rcases hc with (hc | hc) | hc
      · exact .inr ⟨piece, List.mem_cons_self, hc⟩
      · exact .inl hc
      · rcases ih hc with hseparator | ⟨p, hp, hcp⟩
        · exact .inl hseparator
        · exact .inr ⟨p, List.mem_cons_of_mem _ hp, hcp⟩

theorem writeItems_eq_map (style : Style) (vs : List Json) :
    writeItems style vs = vs.map (writeChars style) := by
  induction vs with
  | nil => rfl
  | cons v vs ih => rw [writeItems, ih, List.map_cons]

theorem writeMembers_eq_map (style : Style) (ms : List (String × Json)) :
    writeMembers style ms = ms.map (memberText style) := by
  induction ms with
  | nil => rfl
  | cons m ms ih => rw [writeMembers_cons, ih, List.map_cons]

/-- **A value in the plain style is printable**, whatever characters its texts have. -/
theorem Readable.printable {depth : Option Nat} {v : Json} (h : Readable depth v) :
    ∀ c ∈ writeChars .plain v, Printable c := by
  have hcomma : ∀ c ∈ Style.plain.comma.toList, Printable c := forall_mem_of_all (by decide)
  have hcolon : ∀ c ∈ Style.plain.colon.toList, Printable c := forall_mem_of_all (by decide)
  -- what a container adds to its parts are brackets, commas and colons
  induction h with
  | null => exact forall_mem_of_all (show "null".toList.all (fun c => Printable c) = true by decide)
  | str s => exact printable_writeText s
  | @arr depth inside vs room readable ih =>
    intro c hc
    rw [writeChars, List.cons_append, List.mem_cons, List.mem_append, List.mem_singleton] at hc
    rcases hc with rfl | hc | rfl
    · decide
    · rcases mem_joinWith hc with hc | ⟨piece, hpiece, hc⟩
      · exact hcomma c hc
      · rw [writeItems_eq_map] at hpiece
        obtain ⟨v, hv, rfl⟩ := List.mem_map.1 hpiece
        exact ih v hv c hc
    · decide
  | @obj depth inside ms room readable distinct ih =>
    intro c hc
    rw [writeChars, List.cons_append, List.mem_cons, List.mem_append, List.mem_singleton] at hc
    rcases hc with rfl | hc | rfl
    · decide
    · rcases mem_joinWith hc with hc | ⟨piece, hpiece, hc⟩
      · exact hcomma c hc
      · rw [writeMembers_eq_map] at hpiece
        obtain ⟨m, hm, rfl⟩ := List.mem_map.1 hpiece
        rw [memberText, List.mem_append, List.mem_append] at hc
        rcases hc with (hc | hc) | hc
        · exact printable_writeText m.1 c hc
        · exact hcolon c hc
        · exact ih m hm c hc
    · decide

end Dataspace.Json
