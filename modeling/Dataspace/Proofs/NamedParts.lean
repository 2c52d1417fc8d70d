import Dataspace.Proofs.Fields
import Dataspace.Proofs.MultipartForm

/-!
# Parts by their names

Other connectors may frame a reply with more than two parts, in any order and with names repeated.
The reader keeps the last part of each name and looks two of them up. So what a reply comes to
depends on the last part named `header` and the last part named `payload`, and on nothing else in
it, as long as it has any part at all: a form without parts is not taken for a form.

* **`Mime.Field.dispositionShown_named`**, **`Mime.Shown.parameter?_named`** — the field that names
  a part as it shows, and the name in it.
* **`leaf_named`** — such a part is read with its name and its content.
* **`outcome_of_ne_nil`** — what a form comes to, by the last parts of the two names.
* **`outcome_nil`** — a form without parts is refused.
* **`readsLast_of_ne_nil`** — what may change in a form without changing the outcome.
-/

namespace Dataspace

open Text (Octets)

/-! ## The field that names a part -/

namespace Mime

variable {b : List Char}

/-- The value of the field, with the name in quotes. -/
def namedValue (b : List Char) : List Char :=
  "form-data".toList ++ ';' :: (" name".toList ++ '=' :: '"' :: (b ++ ['"']))

theorem writable_namedValue (h : IsTokenText b) :
    Field.Writable "Content-Disposition".toList (namedValue b) where
  name_ne_nil := by decide
  name_mem := forall_mem_of_all (by decide +kernel)
  value_mem := by
    have hfront : ∀ c ∈ "form-data; name=\"".toList, 0x20 ≤ c.toNat ∧ c.toNat ≤ 0x7E :=
      forall_mem_of_all (by decide +kernel)
    have hquote : ∀ c ∈ ['"'], 0x20 ≤ c.toNat ∧ c.toNat ≤ 0x7E := forall_mem_of_all (by decide)
    have hvalue : namedValue b = "form-data; name=\"".toList ++ (b ++ ['"']) := rfl
    rw [hvalue]
    exact List.forall_mem_append.2
      ⟨hfront, List.forall_mem_append.2 ⟨h.isPrintableText, hquote⟩⟩
  value_head := by
    show some 'f' ≠ some ' '
    decide

def partName : Glyphs :=
  Glyphs.ofChars "name".toList

theorem isName_partName : Parameter.IsName partName :=
  ⟨by decide, by decide, by decide, fun _ => rfl⟩

/-- **The field as it shows** is the field as it is written. -/
theorem Field.dispositionShown_named (h : IsTokenText b) (hne : b ≠ []) :
    dispositionShown (Glyphs.ofChars (namedValue b)) = .ok (namedValue b) := by
  have hvalue : Glyphs.ofChars (namedValue b) = Glyphs.ofChars "form-data".toList ++ .char ';' ::
      .char ' ' :: (partName ++ .char '=' :: .char '"' :: (Glyphs.ofChars b ++ [.char '"'])) := by
    have hmap : (b ++ ['"']).map Glyph.char = b.map .char ++ [.char '"'] := List.map_append
    show ("form-data; name=\"".toList ++ (b ++ ['"'])).map Glyph.char = _
    rw [List.map_append, hmap]
    rfl
  have htoken : ∀ r : Glyphs, Token.token (Glyphs.ofChars "form-data".toList ++ .char ';' :: r) =
      some (Glyphs.ofChars "form-data".toList, .char ';' :: r) :=
    fun r => Token.token_append (by decide) (by decide) rfl rfl rfl
  have hparameter := looseShown_whole isName_partName h hne (Parameter.spells_quoted h hne)
  rw [dispositionShown, hvalue, tokenThen, htoken]
  simp only [hparameter, Except.map]
  rw [← hvalue, Glyphs.readable_ofChars]

/-- **The name.** -/
theorem Shown.parameter?_named (h : IsTokenText b) : parameter? "name" (namedValue b) = some b :=
  parameter?_quoted "form-data".toList " name".toList
    (forall_mem_of_all (by decide +kernel)) (by decide +kernel)
    (forall_mem_of_all (by decide +kernel)) (by decide +kernel) h

end Mime

/-! ## Named parts -/

namespace Multipart

open Mime

/-- A part that is of no particular type. -/
def octetPart (name : String) (content : Octets) : FilePart :=
  ⟨name, content, "application/octet-stream"⟩

theorem partHeader_octetPart (name : String) (content : Octets) :
    partHeader (octetPart name content) =
      [("Content-Disposition".toList, namedValue name.toList),
        ("Content-Type".toList, "application/octet-stream".toList)] := by
  have hvalue : ("form-data; name=\"" ++ name ++ "\"").toList = namedValue name.toList := by
    rw [String.toList_append, String.toList_append, List.append_assoc]
    rfl
  rw [partHeader, octetPart, hvalue]

/-- **Such a part is read** with its name and its content. -/
theorem leaf_named {name : String} (hname : IsTokenText name.toList) (hne : name ≠ "")
    (content : Octets) : Leaf (octetPart name content) payloadType := by
  have hfields : partFields (octetPart name content) =
      [⟨"content-disposition".toList, Glyphs.ofChars (namedValue name.toList)⟩,
        ⟨"content-type".toList, Glyphs.ofChars "application/octet-stream".toList⟩] := by
    rw [partFields, partHeader_octetPart, fieldsOf_part]
  have hchars : name.toList ≠ [] := fun h => hne (String.toList_eq_nil_iff.1 h)
  refine ⟨?_, fun default => ?_, by decide, ?_, hne, ?_⟩
  · rw [partHeader_octetPart]
    exact List.forall_mem_cons.2 ⟨writable_namedValue hname,
      List.forall_mem_singleton.2 (by decide +kernel)⟩
  · have hshown : (Field.mediaTypeShown (Glyphs.ofChars "application/octet-stream".toList)).map
        .ofShown = .ok payloadType := ok_of_toOption (by decide +kernel)
    rw [hfields]
    exact hshown
  · have hshown : (Field.dispositionShown (Glyphs.ofChars (namedValue name.toList))).map
        (Shown.parameter? "name") = .ok (some name.toList) := by
      rw [Field.dispositionShown_named hname hchars]
      exact congrArg Except.ok (Shown.parameter?_named hname)
    rw [hfields]
    exact hshown
  · rw [hfields]
    rfl

/-! ## Forms of such parts -/

theorem range_of_alphanum {c : Char} (h : c.isAlphanum = true) :
    0x21 ≤ c.toNat ∧ c.toNat ≤ 0x7E := by
  -- upper case, lower case and digits are three ranges
  rcases Bool.or_eq_true_iff.1 h with hletter | hdigit
  · rcases Bool.or_eq_true_iff.1 hletter with hupper | hlower
    · have hrange : 0x41 ≤ c.toNat ∧ c.toNat ≤ 0x5A := of_decide_eq_true hupper
      omega
    · obtain ⟨hlow, hhigh⟩ := Bool.and_eq_true_iff.1 hlower
      have hfirst : 0x61 ≤ c.toNat := of_decide_eq_true hlow
      have hlast : c.toNat ≤ 0x7A := of_decide_eq_true hhigh
      omega
  · obtain ⟨hlow, hhigh⟩ := Bool.and_eq_true_iff.1 hdigit
    have hfirst : 0x30 ≤ c.toNat := of_decide_eq_true hlow
    have hlast : c.toNat ≤ 0x39 := of_decide_eq_true hhigh
    omega

theorem isTokenText_of_alphanum {b : List Char} (h : ∀ c ∈ b, c.isAlphanum = true) :
    IsTokenText b := by
  intro c hc
  have hends : ∀ x ∈ Token.valueEnds, x.isAlphanum = false := forall_mem_of_all (by decide)
  refine ⟨range_of_alphanum (h c hc), fun hmem => ?_⟩
  have halphanum := h c hc
  rw [hends c hmem] at halphanum
  cases halphanum

/-- A part that can be framed with this boundary: its name consists of letters and digits, and the
mark of the boundary does not occur in its content. -/
structure NamedPart (boundary : String) where
  name : String
  content : Octets
  name_ne : name ≠ ""
  alphanum : ∀ c ∈ name.toList, c.isAlphanum = true
  free : ¬ Text.utf8 ("--" ++ boundary) <:+: content

namespace NamedPart

variable {boundary : String}

/-- The form of the parts. -/
def form (parts : List (NamedPart boundary)) : Octets :=
  frame boundary (parts.map fun p => octetPart p.name p.content)

/-- What a form comes to. -/
def outcome (parts : List (NamedPart boundary)) : Except Error Response :=
  decode (some (formType boundary)) (form parts)

/-- The parts of one name, in their order. -/
def named (name : String) (parts : List (NamedPart boundary)) : List (NamedPart boundary) :=
  parts.filter fun p => p.name = name

/-- The last part of a name. -/
def last? (name : String) (parts : List (NamedPart boundary)) : Option (NamedPart boundary) :=
  (named name parts).getLast?

/-- The last header part and the last payload part, as far as they are there. -/
def essential (parts : List (NamedPart boundary)) : List (NamedPart boundary) :=
  (last? "header" parts).toList ++ (last? "payload" parts).toList

variable {parts others front back : List (NamedPart boundary)} {p : NamedPart boundary}
  {name n : String}

theorem name_of_last? (h : last? name parts = some p) : p.name = name :=
  of_decide_eq_true (List.mem_filter.1 (List.mem_of_getLast? h)).2

/-- The last part of a name is all of that name in a list of itself, -/
theorem named_toList_last? (name : String) (parts : List (NamedPart boundary)) :
    named name (last? name parts).toList = (last? name parts).toList :=
  List.filter_eq_self.2 fun _ hp => decide_eq_true (name_of_last? (Option.mem_toList.1 hp))

/-- and there is none of another name. -/
theorem named_toList_last?_of_ne (h : n ≠ name) (parts : List (NamedPart boundary)) :
    named n (last? name parts).toList = [] :=
  List.filter_eq_nil_iff.2 fun _ hp heq =>
    h ((of_decide_eq_true heq).symm.trans (name_of_last? (Option.mem_toList.1 hp)))

theorem named_append (name : String) (front back : List (NamedPart boundary)) :
    named name (front ++ back) = named name front ++ named name back :=
  List.filter_append ..

theorem named_cons_of_ne (h : p.name ≠ name) (parts : List (NamedPart boundary)) :
    named name (p :: parts) = named name parts :=
  List.filter_cons_of_neg (by simpa using h)

theorem getLast?_toList {α : Type} (o : Option α) : o.toList.getLast? = o := by
  cases o <;> rfl

theorem last?_header_essential (parts : List (NamedPart boundary)) :
    last? "header" (essential parts) = last? "header" parts := by
  rw [last?, essential, named_append, named_toList_last?, named_toList_last?_of_ne (by decide),
    List.append_nil, getLast?_toList]

theorem last?_payload_essential (parts : List (NamedPart boundary)) :
    last? "payload" (essential parts) = last? "payload" parts := by
  rw [last?, essential, named_append, named_toList_last?, named_toList_last?_of_ne (by decide),
    List.nil_append, getLast?_toList]

/-! ### What a form comes to -/

section Boundary

variable (hlength : boundary.toList.length = 32)
  (hdigits : ∀ c ∈ boundary.toList, (Text.hexValue? c).isSome = true)

include hlength hdigits

/-- **The parts of a form** are found by their names, the last of each. -/
theorem exists_parts_of_form (hne : parts ≠ []) :
    ∃ fields, readParts (formType boundary) (form parts) = .ok fields ∧
      ∀ name, fields.get? name = (last? name parts).map (·.content) := by
  have hb : IsHexText boundary.toList := hdigits
  have hboundary : boundary ≠ "" := by
    rintro rfl
    cases hlength
  have hread := readParts_frame hb hboundary
    (parts.map fun p => (octetPart p.name p.content, payloadType))
    (fun h => hne (List.map_eq_nil_iff.1 h)) ?_ ?_
  · rw [List.map_map, List.map_map] at hread
    refine ⟨_, hread, fun name => ?_⟩
    rw [Fields.get?_ofPairs, List.filter_map, List.getLast?_map, Option.map_map]
    rfl
  · intro q hq
    obtain ⟨p, -, rfl⟩ := List.mem_map.1 hq
    exact leaf_named (isTokenText_of_alphanum p.alphanum) p.name_ne p.content
  · intro q hq l hl
    obtain ⟨p, -, rfl⟩ := List.mem_map.1 hq
    have hfree := p.free
    rw [utf8_mark] at hfree
    exact Line.delimiter?_eq_none_of_free hfree (isLineEnd_mark hb) hl

/-- **What a form comes to**: it is refused without a header part. Otherwise the last one gives the
header, if it can be read, and the last payload part gives the payload, which is empty if there is
none. -/
theorem outcome_of_ne_nil (hne : parts ≠ []) :
    outcome parts =
      match last? "header" parts with
      | none => .error (.transport .noHeaderPart none)
      | some p => (readHeader p.content).map fun header =>
        ⟨header, .octets (((last? "payload" parts).map (·.content)).getD [])⟩ := by
  obtain ⟨fields, hread, hget⟩ := exists_parts_of_form hlength hdigits hne
  rw [outcome, decode_of_isMultipart (isMultipart_formType boundary), hread]
  simp only [hget]
  cases last? "header" parts <;> rfl

/-- Two forms with the same last parts of the two names come to the same. -/
theorem outcome_congr (hne : parts ≠ []) (hothers : others ≠ [])
    (hheader : last? "header" others = last? "header" parts)
    (hpayload : last? "payload" others = last? "payload" parts) :
    outcome others = outcome parts := by
  rw [outcome_of_ne_nil hlength hdigits hne, outcome_of_ne_nil hlength hdigits hothers, hheader,
    hpayload]

omit hlength in
/-- **A form without parts** is no message in parts for the reader, which refuses it. -/
theorem outcome_nil (hne : boundary ≠ "") :
    outcome ([] : List (NamedPart boundary)) = .error (.transport .malformed none) := by
  have hb : IsHexText boundary.toList := hdigits
  have hannounces := announces_formType hb hne
  -- the only line is a final delimiter
  have hlines : Line.ofOctets (form ([] : List (NamedPart boundary))) =
      [Line.mark boundary.toList ++ [0x2D, 0x2D, 0x0D, 0x0A]] :=
    ofOctets_frame hb fun _ hpart => nomatch hpart
  have hfinal : Line.delimiter? boundary.toList
      (Line.mark boundary.toList ++ [0x2D, 0x2D, 0x0D, 0x0A]) = some .final :=
    Line.delimiter?_mark_append hannounces.entity.printable.all_ascii _
  obtain ⟨kind, hkind, -⟩ := hannounces.entity.typed
  obtain ⟨fuel, hread⟩ := readParts_groups hannounces.entity hkind (form [])
  rw [outcome, decode_of_isMultipart hannounces.multipart, hread, hlines,
    Entity.groups_singleton hfinal]

end Boundary

/-- **What may change** in a form without changing what it comes to. -/
structure ReadsLast (parts : List (NamedPart boundary)) : Prop where
  /-- All parts may be left out but the last header part and the last payload part, if there is at
  least one of the two. -/
  reduced : (∃ p ∈ parts, p.name = "header" ∨ p.name = "payload") →
    outcome parts = outcome (essential parts)
  /-- A form without a header part is refused. -/
  headless : (∀ p ∈ parts, p.name ≠ "header") →
    outcome parts = .error (.transport .noHeaderPart none)
  /-- Without a payload part, all that can go wrong is the header, and the payload is empty. -/
  bodiless : ∀ p, last? "header" parts = some p → (∀ q ∈ parts, q.name ≠ "payload") →
    outcome parts = (readHeader p.content).map fun header => ⟨header, .octets []⟩
  /-- Parts of different names may change places. -/
  permuted : ∀ others : List (NamedPart boundary),
    (∀ name, named name others = named name parts) → outcome others = outcome parts
  /-- Parts of other names may be put in anywhere. -/
  inserted : ∀ front p back, parts = front ++ back → p.name ≠ "header" → p.name ≠ "payload" →
    outcome (front ++ p :: back) = outcome parts

/-- A name that no part has has no last part. -/
theorem last?_eq_none (h : ∀ p ∈ parts, p.name ≠ name) : last? name parts = none := by
  have hnone : named name parts = [] :=
    List.filter_eq_nil_iff.2 fun p hp heq => h p hp (of_decide_eq_true heq)
  rw [last?, hnone]
  rfl

theorem mem_named (hp : p ∈ parts) : p ∈ named p.name parts :=
  List.mem_filter.2 ⟨hp, decide_eq_true rfl⟩

theorem toList_last?_ne_nil (hp : p ∈ parts) : (last? p.name parts).toList ≠ [] := by
  intro h
  have hnone : named p.name parts = [] :=
    List.getLast?_eq_none_iff.1 (Option.toList_eq_nil_iff.1 h)
  have hmem := mem_named hp
  rw [hnone] at hmem
  cases hmem

theorem essential_ne_nil (h : ∃ p ∈ parts, p.name = "header" ∨ p.name = "payload") :
    essential parts ≠ [] := by
  obtain ⟨p, hp, hname⟩ := h
  have hne := toList_last?_ne_nil hp
  rcases hname with hname | hname
  · rw [hname] at hne
    exact List.append_ne_nil_of_left_ne_nil hne _
  · rw [hname] at hne
    exact List.append_ne_nil_of_right_ne_nil _ hne

/-- **A form is read by its last parts.** -/
theorem readsLast_of_ne_nil (hlength : boundary.toList.length = 32)
    (hdigits : ∀ c ∈ boundary.toList, (Text.hexValue? c).isSome = true) (hne : parts ≠ []) :
    ReadsLast parts where
  reduced h := (outcome_congr hlength hdigits hne (essential_ne_nil h)
    (last?_header_essential parts) (last?_payload_essential parts)).symm
  headless h := by
    rw [outcome_of_ne_nil hlength hdigits hne, last?_eq_none h]
  bodiless p hp h := by
    rw [outcome_of_ne_nil hlength hdigits hne, hp, last?_eq_none h]
    rfl
  permuted others h := by
    have hlast : ∀ name, last? name others = last? name parts :=
      fun name => congrArg List.getLast? (h name)
    have hothers : others ≠ [] := by
      rintro rfl
      obtain ⟨p, hp⟩ := List.exists_mem_of_ne_nil parts hne
      have hmem := mem_named hp
      rw [← h p.name] at hmem
      cases hmem
    exact outcome_congr hlength hdigits hne hothers (hlast _) (hlast _)
  inserted front p back heq hheader hpayload := by
    have hlast : ∀ name, p.name ≠ name → last? name (front ++ p :: back) = last? name parts := by
      intro name hname
      rw [last?, last?, heq, named_append, named_append, named_cons_of_ne hname]
    exact outcome_congr hlength hdigits hne (by simp) (hlast _ hheader) (hlast _ hpayload)

/-- A part that no reader of replies looks for. -/
def stranger : NamedPart "0123456789abcdef0123456789abcdef" :=
  ⟨"x1", [0x61], by decide, forall_mem_of_all (by decide), by decide +kernel⟩

/-- A header part that holds no JSON. -/
def brokenHeader : NamedPart "0123456789abcdef0123456789abcdef" :=
  ⟨"header", [0x5B], by decide, forall_mem_of_all (by decide), by decide +kernel⟩

def emptyHeader : NamedPart "0123456789abcdef0123456789abcdef" :=
  ⟨"header", [0x7B, 0x7D], by decide, forall_mem_of_all (by decide), by decide +kernel⟩

/-- A payload part that ends like the beginning of a delimiter. -/
def openPayload : NamedPart "0123456789abcdef0123456789abcdef" :=
  ⟨"payload", [0x0D, 0x0A, 0x2D, 0x2D], by decide, forall_mem_of_all (by decide), by decide +kernel⟩

/-- The stranger is passed over, and so is the first header. -/
theorem readsLast_around_stranger :
    outcome [openPayload, brokenHeader, stranger, emptyHeader] =
      outcome [emptyHeader, openPayload] :=
  (readsLast_of_ne_nil (by decide) (forall_mem_of_all (by decide +kernel))
    (List.cons_ne_nil _ _)).reduced (by decide)

/-- **Nothing but strangers** is a form without a header part; with them all left out, it is none
at all. -/
theorem outcome_of_stranger :
    "0123456789abcdef0123456789abcdef".toList.length = 32 ∧
    (∀ c ∈ "0123456789abcdef0123456789abcdef".toList, (Text.hexValue? c).isSome = true) ∧
    outcome [stranger] = .error (.transport .noHeaderPart none) ∧
    outcome (essential [stranger]) = .error (.transport .malformed none) := by
  have hlength : "0123456789abcdef0123456789abcdef".toList.length = 32 := by decide
  have hdigits : ∀ c ∈ "0123456789abcdef0123456789abcdef".toList,
      (Text.hexValue? c).isSome = true := forall_mem_of_all (by decide +kernel)
  refine ⟨hlength, hdigits, ?_, outcome_nil hdigits (by decide)⟩
  exact outcome_of_ne_nil hlength hdigits (List.cons_ne_nil _ _)

end NamedPart

end Multipart

end Dataspace
