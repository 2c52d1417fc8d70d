import Dataspace.Proofs.FormType
import Dataspace.Proofs.JsonText

/-!
# Forms read back

A message that was framed as a form is read back: header fields and payload are what they were,
whatever the texts of the fields and the octets of the payload are, as long as the mark of the
boundary does not occur in the payload.

* **`groups_frame`** — the lines of a form fall into the groups of its parts.
* **`Leaf.read_lines`** — one group gives one part, with the line end of the delimiter behind it.
* **`read_declared`** — what is read behind the lines of a header.
* **`readParts_groups`**, **`readParts_announced`** — the parts by their names, whatever announces
  the boundary.
* **`readHeader_files`** — the header part gives the header fields.
* **`decode_announced`**, **`decode_frame`** — the whole way.
-/

namespace Dataspace

open Text (Octets)

/-! ## Groups of lines -/

namespace Mime.Entity

variable {kind : Octets → Option Line.Delimiter} {between final : Octets}

/-- Groups with a delimiter in front of each and the final one at the end. -/
def delimited (between final : Octets) (groups : List (List Octets)) : List Octets :=
  (groups.map fun g => between :: g).flatten ++ [final]

/-- What stands behind a group is a delimiter. -/
theorem head_groups (hbetween : kind between = some .between) {tail : List Octets}
    (htail : tail.head?.any (fun l => (kind l).isNone) = false) (groups : List (List Octets)) :
    ((groups.map fun g => between :: g).flatten ++ tail).head?.any (fun l => (kind l).isNone) =
      false := by
  cases groups with
  | nil => exact htail
  | cons g groups =>
    rw [List.map_cons, List.flatten_cons, List.cons_append, List.cons_append, List.head?_cons,
      Option.any_some, hbetween]
    rfl

/-- **One group** goes from a delimiter up to the next one. Only the last may be empty: two
delimiters with nothing between them count as one. -/
theorem groupsFrom_cons_append {line : Octets} {g rest : List Octets}
    (hline : kind line = some .between) (hnone : ∀ l ∈ g, kind l = none)
    (hrest : rest.head?.any (fun l => (kind l).isNone) = false) (hne : g ≠ [] ∨ rest = [])
    (fuel : Nat) :
    groupsFrom kind (fuel + 1) (line :: (g ++ rest)) = g :: groupsFrom kind fuel rest := by
  have hgroup : ∀ l ∈ g, (kind l).isNone = true := fun l hl => by rw [hnone l hl]; rfl
  have hdrop : (g ++ rest).dropWhile (fun l => (kind l).isSome) = g ++ rest := by
    cases g with
    | nil => rw [hne.resolve_left fun h => h rfl]; rfl
    | cons l g =>
      rw [List.cons_append, List.dropWhile_cons, hnone l List.mem_cons_self]
      rfl
  have hspan : (g ++ rest).span (fun l => (kind l).isNone) = (g, rest) := by
    rw [List.span_eq_takeWhile_dropWhile, takeWhile_append_stop hgroup hrest,
      dropWhile_append_stop hgroup hrest]
  rw [groupsFrom, hline, hdrop, hspan]
  rfl

/-- Groups are taken off one by one, whatever stands behind them. -/
theorem groupsFrom_append (hbetween : kind between = some .between) {tail : List Octets}
    (htail : tail.head?.any (fun l => (kind l).isNone) = false) {last : List (List Octets)}
    (hlast : ∀ fuel, groupsFrom kind (fuel + 1) tail = last) (groups : List (List Octets)) :
    (∀ g ∈ groups, g ≠ [] ∧ ∀ l ∈ g, kind l = none) → ∀ fuel, groups.length < fuel →
      groupsFrom kind fuel ((groups.map fun g => between :: g).flatten ++ tail) =
        groups ++ last := by
  induction groups with
  | nil =>
    intro _ fuel hfuel
    obtain ⟨fuel, rfl⟩ : ∃ k, fuel = k + 1 := ⟨fuel - 1, by omega⟩
    exact hlast fuel
  | cons g groups ih =>
    intro h fuel hfuel
    obtain ⟨fuel, rfl⟩ : ∃ k, fuel = k + 1 := ⟨fuel - 1, by omega⟩
    obtain ⟨hne, hnone⟩ := h g List.mem_cons_self
    have hmore := ih (fun x hx => h x (List.mem_cons_of_mem _ hx)) fuel
      (Nat.lt_of_succ_lt_succ hfuel)
    rw [List.map_cons, List.flatten_cons, List.append_assoc, List.cons_append,
      groupsFrom_cons_append hbetween hnone (head_groups hbetween htail groups) (.inl hne), hmore,
      List.cons_append]

theorem length_le_length_groups (between : Octets) (groups : List (List Octets)) :
    groups.length ≤ (groups.map fun g => between :: g).flatten.length := by
  induction groups with
  | nil => exact Nat.le_refl _
  | cons g groups ih =>
    rw [List.map_cons, List.flatten_cons, List.length_append, List.length_cons, List.length_cons]
    omega

/-- **The groups of a body** that begins with a delimiter, up to what stands behind them. -/
theorem groups_append {boundary : List Char}
    (hbetween : Line.delimiter? boundary between = some .between) {line : Octets}
    {tail : List Octets} (hline : (Line.delimiter? boundary line).isSome = true)
    {last : List (List Octets)}
    (hlast : ∀ fuel, groupsFrom (Line.delimiter? boundary) (fuel + 1) (line :: tail) = last)
    {groups : List (List Octets)}
    (hfirst : groups ≠ [] ∨ Line.delimiter? boundary line = some .between)
    (h : ∀ g ∈ groups, g ≠ [] ∧ ∀ l ∈ g, Line.delimiter? boundary l = none) :
    Entity.groups boundary ((groups.map fun g => between :: g).flatten ++ line :: tail) =
      .inr (groups ++ last) := by
  have htail : (line :: tail).head?.any (fun l => (Line.delimiter? boundary l).isNone) = false := by
    rw [List.head?_cons, Option.any_some, Option.isNone_eq_false_iff]
    exact hline
  -- the first line is a delimiter, and no final one
  obtain ⟨first, more, hbody, hkind⟩ : ∃ first more,
      (groups.map fun g => between :: g).flatten ++ line :: tail = first :: more ∧
        Line.delimiter? boundary first = some .between := by
    cases groups with
    | nil => exact ⟨line, tail, rfl, hfirst.resolve_left fun h => h rfl⟩
    | cons g groups => exact ⟨between, _, rfl, hbetween⟩
  have hspan : (first :: more).span (fun l => (Line.delimiter? boundary l).isNone) =
      ([], first :: more) := by
    rw [List.span_eq_takeWhile_dropWhile, List.takeWhile_cons, List.dropWhile_cons, hkind]
    rfl
  have hlength : groups.length < (first :: more).length := by
    have hgroups := length_le_length_groups between groups
    rw [← hbody, List.length_append, List.length_cons]
    omega
  have hgroups := groupsFrom_append hbetween htail hlast groups h _ hlength
  rw [hbody] at hgroups ⊢
  rw [Entity.groups, hspan]
  simp only [hkind, if_true, hgroups]

/-- Delimited groups are the groups, if none of them is empty or holds a delimiter. -/
theorem groups_delimited {boundary : List Char}
    (hbetween : Line.delimiter? boundary between = some .between)
    (hfinal : Line.delimiter? boundary final = some .final) {groups : List (List Octets)}
    (hne : groups ≠ [])
    (h : ∀ g ∈ groups, g ≠ [] ∧ ∀ l ∈ g, Line.delimiter? boundary l = none) :
    Entity.groups boundary (delimited between final groups) = .inr groups := by
  have hlast : ∀ fuel, groupsFrom (Line.delimiter? boundary) (fuel + 1) [final] = [] :=
    fun _ => if_pos hfinal
  have hgroups := groups_append hbetween (hfinal ▸ rfl) hlast (.inl hne) h
  rw [List.append_nil] at hgroups
  exact hgroups

/-- The last group may have no delimiter behind it. -/
theorem groups_openEnded {boundary : List Char}
    (hbetween : Line.delimiter? boundary between = some .between) {line : Octets}
    (hline : Line.delimiter? boundary line = some .between) {groups : List (List Octets)}
    (h : ∀ g ∈ groups, g ≠ [] ∧ ∀ l ∈ g, Line.delimiter? boundary l = none)
    {last : List Octets} (hlast : ∀ l ∈ last, Line.delimiter? boundary l = none) :
    Entity.groups boundary ((groups.map fun g => between :: g).flatten ++ line :: last) =
      .inr (groups ++ [last]) := by
  refine groups_append hbetween (hline ▸ rfl) (fun fuel => ?_) (.inr hline) h
  have hgroup : groupsFrom (Line.delimiter? boundary) (fuel + 1) (line :: (last ++ [])) =
      last :: groupsFrom (Line.delimiter? boundary) fuel [] :=
    groupsFrom_cons_append hline hlast rfl (.inr rfl) fuel
  rw [List.append_nil] at hgroup
  rw [hgroup]
  cases fuel <;> rfl

/-- A final delimiter alone has no groups in front of it. -/
theorem groups_singleton {boundary : List Char}
    (hfinal : Line.delimiter? boundary final = some .final) :
    Entity.groups boundary [final] = .inl [] := by
  have hspan : [final].span (fun l => (Line.delimiter? boundary l).isNone) = ([], [final]) := by
    rw [List.span_eq_takeWhile_dropWhile, List.takeWhile_cons, List.dropWhile_cons, hfinal]
    rfl
  rw [Entity.groups, hspan]
  simp only [hfinal]
  rfl

/-! ## Entities -/

variable {fields : List (List Char × List Char)}

/-- The fields that a header gives. -/
def fieldsOf (fields : List (List Char × List Char)) : List Field :=
  fields.map fun f => ⟨f.1.map Char.toLower, Glyphs.ofChars f.2⟩

/-- A type that is declared counts, whatever would count without it. -/
theorem typeOf_of_declared {fields : List Field}
    (h : (Field.find? fields "content-type").isSome = true) (default : MediaType) :
    typeOf fields default = typeOf fields .plainText := by
  obtain ⟨value, hvalue⟩ := Option.isSome_iff_exists.1 h
  rw [typeOf, typeOf, hvalue]

/-- **An entity behind the lines of its header.** Its type says what is made of the body. -/
theorem read_declared (hwritable : ∀ f ∈ fields, Field.Writable f.1 f.2)
    {default type : MediaType} (htype : typeOf (fieldsOf fields) default = .ok type) (fuel : Nat)
    (body : List Octets) :
    read (fuel + 1) default (Field.lines fields ++ [0x0D, 0x0A] :: body) =
      if type = .deliveryStatus then
        ((blocks body.length body).mapM (read fuel .plainText)).map fun entities =>
          mk (fieldsOf fields) type (.parts entities)
      else if type.isMessage then
        (read fuel .plainText body).map fun e => mk (fieldsOf fields) type (.parts [e])
      else if type.isMultipart then
        match boundaryOf (fieldsOf fields) with
        | .error fault => .error fault
        | .ok none => .ok (mk (fieldsOf fields) type (.text body.flatten))
        | .ok (some boundary) =>
          match groups boundary body with
          | .inl text => .ok (mk (fieldsOf fields) type (.text text))
          | .inr groups =>
            (groups.mapM (read fuel (if type = .digest then .message else .plainText))).map
              fun entities => mk (fieldsOf fields) type (.parts (entities.map withoutEnd))
      else .ok (mk (fieldsOf fields) type (.text body.flatten)) := by
  have hfields : Field.ofHeader (Field.lines fields) = fieldsOf fields :=
    Field.ofHeader_lines hwritable
  rw [read, Field.splitHeader_lines hwritable]
  simp only [hfields, htype, bind, Except.bind]
  split
  · cases (blocks body.length body).mapM (read fuel .plainText) <;> rfl
  split
  · cases read fuel .plainText body <;> rfl
  split
  · cases boundaryOf (fieldsOf fields) with
    | error fault => rfl
    | ok boundary =>
      cases boundary with
      | none => rfl
      | some boundary =>
        simp only
        cases groups boundary body with
        | inl text => rfl
        | inr groups =>
          simp only
          cases groups.mapM (read fuel (if type = .digest then .message else .plainText)) <;> rfl
  · rfl

/-- An entity that has no parts is its header and its text. -/
theorem read_text (hwritable : ∀ f ∈ fields, Field.Writable f.1 f.2) {default type : MediaType}
    (htype : typeOf (fieldsOf fields) default = .ok type) (hmessage : type.isMessage = false)
    (hmultipart : type.isMultipart = false) (fuel : Nat) (body : List Octets) :
    read (fuel + 1) default (Field.lines fields ++ [0x0D, 0x0A] :: body) =
      .ok (mk (fieldsOf fields) type (.text body.flatten)) := by
  -- a report on delivery would count as a message
  have hstatus : type ≠ .deliveryStatus := by
    rintro rfl
    cases hmessage
  rw [read_declared hwritable htype]
  simp only [hstatus, hmessage, hmultipart, if_false, Bool.false_eq_true]

/-- What is in parts is neither a message nor a report on delivery. -/
theorem isMessage_of_isMultipart {type : MediaType} (h : type.isMultipart = true) :
    type.isMessage = false ∧ type ≠ .deliveryStatus := by
  have hmain : type.main = "multipart".toList := of_decide_eq_true h
  refine ⟨?_, ?_⟩
  · rw [MediaType.isMessage, hmain]
    decide
  · rintro rfl
    exact absurd hmain (by decide)

/-- The header of a body of this type. -/
def typeHeader (contentType : List Char) : List (List Char × List Char) :=
  [("Content-Type".toList, contentType)]

/-- A content type under which a body in parts is read with this boundary. -/
structure Announces (contentType boundary : List Char) : Prop where
  writable : Field.Writable "Content-Type".toList contentType
  typed : ∃ type, typeOf (fieldsOf (typeHeader contentType)) .plainText = .ok type ∧
    type.isMultipart = true
  bounded : boundaryOf (fieldsOf (typeHeader contentType)) = .ok (some boundary)
  printable : IsPrintableText boundary

variable {contentType b : List Char}

theorem Announces.writable_typeHeader (h : Announces contentType b) :
    ∀ f ∈ typeHeader contentType, Field.Writable f.1 f.2 :=
  List.forall_mem_singleton.2 h.writable

theorem fieldsOf_typeHeader (b : List Char) :
    fieldsOf (typeHeader (formValue b)) = formFields b := by
  have hname : "Content-Type".toList.map Char.toLower = "content-type".toList := by decide +kernel
  rw [fieldsOf, typeHeader, List.map_singleton, hname]
  rfl

/-- The content type of a form announces every boundary that needs no quotes. -/
theorem announces_form (hb : IsTokenText b) (hne : b ≠ []) : Announces (formValue b) b where
  writable := hb.writable
  typed := by
    rw [fieldsOf_typeHeader]
    exact ⟨_, typeOf_form hb hne .plainText, by decide⟩
  bounded := by
    rw [fieldsOf_typeHeader]
    exact boundaryOf_form hb hne
  printable := hb

/-- **A body under a type in parts** is taken for text if it has no groups of lines; otherwise every
group is read as a part, of the type that parts have without a declaration. -/
theorem read_multipart (hwritable : Field.Writable "Content-Type".toList contentType)
    {type : MediaType} (htype : typeOf (fieldsOf (typeHeader contentType)) .plainText = .ok type)
    (hmultipart : type.isMultipart = true)
    (hboundary : boundaryOf (fieldsOf (typeHeader contentType)) = .ok (some b)) (fuel : Nat)
    (body : List Octets) :
    read (fuel + 1) .plainText (Field.lines (typeHeader contentType) ++ [0x0D, 0x0A] :: body) =
      match Entity.groups b body with
      | .inl text => .ok (mk (fieldsOf (typeHeader contentType)) type (.text text))
      | .inr groups =>
        (groups.mapM (read fuel (if type = .digest then .message else .plainText))).map
          fun entities => mk (fieldsOf (typeHeader contentType)) type
            (.parts (entities.map withoutEnd)) := by
  have hheader : ∀ f ∈ typeHeader contentType, Field.Writable f.1 f.2 :=
    List.forall_mem_singleton.2 hwritable
  obtain ⟨hmessage, hstatus⟩ := isMessage_of_isMultipart hmultipart
  rw [read_declared hheader htype]
  simp only [hboundary, hstatus, hmessage, hmultipart, if_false, if_true, Bool.false_eq_true]

end Mime.Entity

/-! ## Lines of a form -/

namespace Multipart

open Mime
open Text.Utf8 (encode encode_append)

variable {boundary : String}

def partHeader (part : FilePart) : List (List Char × List Char) :=
  [("Content-Disposition".toList, ("form-data; name=\"" ++ part.name ++ "\"").toList),
    ("Content-Type".toList, part.contentType.toList)]

/-- The lines of a part, without the delimiter in front. -/
def partLines (part : FilePart) : List Octets :=
  Field.lines (partHeader part) ++ [0x0D, 0x0A] :: Line.ofOctets (part.content ++ [0x0D, 0x0A])

theorem utf8_append (s t : String) : Text.utf8 (s ++ t) = Text.utf8 s ++ Text.utf8 t := by
  rw [Text.utf8, String.toList_append, encode_append]
  rfl

theorem utf8_mark (boundary : String) :
    Text.utf8 ("--" ++ boundary) = Line.mark boundary.toList := by
  rw [utf8_append, Line.mark, String.ofList_toList]
  rfl

/-- The header lines of a part and the empty line after them. -/
def fieldLines (part : FilePart) : Octets :=
  Text.utf8 ("Content-Disposition: form-data; name=\"" ++ part.name ++ "\"\r\nContent-Type: " ++
    part.contentType ++ "\r\n\r\n")

theorem fieldLines_eq (part : FilePart) :
    fieldLines part = (Field.lines (partHeader part)).flatten ++ [0x0D, 0x0A] := by
  have hdisposition : Text.utf8 "Content-Disposition: form-data; name=\"" =
      encode "Content-Disposition".toList ++ 0x3A :: 0x20 ::
        encode "form-data; name=\"".toList := by decide +kernel
  have htype : Text.utf8 "\"\r\nContent-Type: " =
      encode "\"".toList ++ 0x0D :: 0x0A :: (encode "Content-Type".toList ++ [0x3A, 0x20]) := by
    decide +kernel
  have hends : Text.utf8 "\r\n\r\n" = [0x0D, 0x0A, 0x0D, 0x0A] := by decide +kernel
  have hname : ∀ s : String, Text.utf8 s = encode s.toList := fun _ => rfl
  rw [fieldLines, utf8_append, utf8_append, utf8_append, utf8_append, hdisposition, htype, hends,
    partHeader, Field.lines, List.map_cons, List.map_singleton, List.flatten_cons,
    List.flatten_singleton, Field.line, Field.line, String.toList_append, String.toList_append,
    encode_append, encode_append, hname, hname]
  simp only [List.append_assoc, List.cons_append, List.nil_append]

theorem utf8_lineEnd : Text.utf8 "\r\n" = [0x0D, 0x0A] := by decide +kernel

/-- A framed part, piece by piece. -/
theorem framePart_eq (boundary : String) (part : FilePart) :
    framePart boundary part = Line.mark boundary.toList ++ 0x0D :: 0x0A ::
      (fieldLines part ++ (part.content ++ [0x0D, 0x0A])) := by
  have hstart : "\r\nContent-Disposition: form-data; name=\"" =
      "\r\n" ++ "Content-Disposition: form-data; name=\"" := by decide +kernel
  rw [framePart, hstart, ← utf8_mark]
  simp only [fieldLines, utf8_append, utf8_lineEnd, List.append_assoc, List.cons_append,
    List.nil_append]

/-- Header lines and the empty line after them are lines of their own. -/
theorem ofOctets_lines {fields : List (List Char × List Char)}
    (h : ∀ f ∈ fields, Field.Writable f.1 f.2) (r : Octets) :
    Line.ofOctets ((Field.lines fields).flatten ++ 0x0D :: 0x0A :: r) =
      Field.lines fields ++ [0x0D, 0x0A] :: Line.ofOctets r := by
  induction fields with
  | nil => exact Line.ofOctets_line (s := []) (fun b hb => by cases hb) r
  | cons f fields ih =>
    have hopen := (h f List.mem_cons_self).isLineEnd
    have hrest := ih fun g hg => h g (List.mem_cons_of_mem _ hg)
    rw [Field.lines] at hrest
    rw [Field.lines, List.map_cons, List.flatten_cons, Field.line_eq, List.append_assoc,
      List.append_assoc, List.cons_append, List.cons_append, List.nil_append,
      Line.ofOctets_line hopen, hrest, List.cons_append]

/-- A mark in ASCII without line ends. -/
theorem isLineEnd_mark (hb : IsPrintableText boundary.toList) :
    ∀ b ∈ Line.mark boundary.toList, isLineEnd b = false := by
  intro b hmem
  rw [Line.mark, List.mem_cons, List.mem_cons, String.ofList_toList] at hmem
  rcases hmem with rfl | rfl | hmem
  · rfl
  · rfl
  · obtain ⟨c, hc, hnumber⟩ := Text.Utf8.mem_encode_ascii hb.ascii hmem
    have hlow := (hb c hc).1
    exact Line.isLineEnd_of_le (hnumber ▸ hlow)

theorem isLineEnd_final (hb : IsPrintableText boundary.toList) :
    ∀ b ∈ Line.mark boundary.toList ++ [0x2D, 0x2D], isLineEnd b = false := by
  intro b hmem
  rcases List.mem_append.1 hmem with hmem | hmem
  · exact isLineEnd_mark hb b hmem
  · simp only [List.mem_cons, List.not_mem_nil, or_false, or_self] at hmem
    rw [hmem]
    rfl

/-- A framed part in front of something else. -/
theorem ofOctets_framePart (hb : IsPrintableText boundary.toList) {part : FilePart}
    (hpart : ∀ f ∈ partHeader part, Field.Writable f.1 f.2) (r : Octets) :
    Line.ofOctets (framePart boundary part ++ r) =
      (Line.mark boundary.toList ++ [0x0D, 0x0A]) :: (partLines part ++ Line.ofOctets r) := by
  -- the content may end in a line end or in half of one; the one behind it ends the line anyway
  have hcontent := Line.ofOctets_append (part.content ++ [0x0D]) r
  simp only [List.append_assoc, List.singleton_append] at hcontent
  rw [framePart_eq, fieldLines_eq]
  simp only [List.append_assoc, List.cons_append, List.nil_append]
  rw [Line.ofOctets_line (isLineEnd_mark hb), ofOctets_lines hpart, hcontent, partLines]
  simp only [List.append_assoc, List.cons_append]

/-- Framed parts in front of something else. -/
theorem ofOctets_parts (hb : IsPrintableText boundary.toList) {parts : List FilePart}
    (hparts : ∀ part ∈ parts, ∀ f ∈ partHeader part, Field.Writable f.1 f.2) (r : Octets) :
    Line.ofOctets (parts.flatMap (framePart boundary) ++ r) =
      ((parts.map partLines).map fun g =>
        (Line.mark boundary.toList ++ [0x0D, 0x0A]) :: g).flatten ++ Line.ofOctets r := by
  induction parts with
  | nil => rfl
  | cons part parts ih =>
    rw [List.flatMap_cons, List.append_assoc,
      ofOctets_framePart hb (hparts part List.mem_cons_self),
      ih fun p hp => hparts p (List.mem_cons_of_mem _ hp), List.map_cons, List.map_cons,
      List.flatten_cons, List.append_assoc, List.cons_append]

/-- **The lines of a form** are those of its parts with delimiters in front, and the final one. -/
theorem ofOctets_frame (hb : IsPrintableText boundary.toList) {parts : List FilePart}
    (hparts : ∀ part ∈ parts, ∀ f ∈ partHeader part, Field.Writable f.1 f.2) :
    Line.ofOctets (frame boundary parts) =
      Entity.delimited (Line.mark boundary.toList ++ [0x0D, 0x0A])
        (Line.mark boundary.toList ++ [0x2D, 0x2D, 0x0D, 0x0A]) (parts.map partLines) := by
  have hfinal : Text.utf8 ("--" ++ boundary ++ "--\r\n") =
      Line.mark boundary.toList ++ [0x2D, 0x2D, 0x0D, 0x0A] := by
    rw [utf8_append, utf8_mark]
    rfl
  have hline := Line.ofOctets_line (isLineEnd_final hb) []
  simp only [List.append_assoc, List.cons_append, List.nil_append] at hline
  rw [frame, hfinal, ofOctets_parts hb hparts, hline]
  rfl

/-- No header line of a part is a delimiter, since the names of the fields begin with a letter. -/
theorem free_lines {part : FilePart} {boundary : List Char} {s : Octets}
    (hs : ∀ l ∈ Line.ofOctets s, Line.delimiter? boundary l = none) :
    ∀ l ∈ Field.lines (partHeader part) ++ [0x0D, 0x0A] :: Line.ofOctets s,
      Line.delimiter? boundary l = none := by
  intro l hl
  rw [List.mem_append, List.mem_cons] at hl
  rcases hl with hl | rfl | hl
  · rw [partHeader, Field.lines, List.map_cons, List.map_singleton, List.mem_cons,
      List.mem_singleton] at hl
    rcases hl with rfl | rfl
    · exact Line.delimiter?_eq_none_of_head (b := 0x43) rfl (by decide)
    · exact Line.delimiter?_eq_none_of_head (b := 0x43) rfl (by decide)
  · exact Line.delimiter?_eq_none_of_head (b := 0x0D) rfl (by decide)
  · exact hs l hl

/-- **The groups of a form** are the lines of its parts, if none of these is a delimiter. -/
theorem groups_frame (hb : IsPrintableText boundary.toList) {parts : List FilePart}
    (hne : parts ≠ [])
    (hparts : ∀ part ∈ parts, ∀ f ∈ partHeader part, Field.Writable f.1 f.2)
    (hfree : ∀ part ∈ parts, ∀ l ∈ Line.ofOctets (part.content ++ [0x0D, 0x0A]),
      Line.delimiter? boundary.toList l = none) :
    Entity.groups boundary.toList (Line.ofOctets (frame boundary parts)) =
      .inr (parts.map partLines) := by
  rw [ofOctets_frame hb hparts]
  refine Entity.groups_delimited (Line.delimiter?_mark_append hb.all_ascii _)
    (Line.delimiter?_mark_append hb.all_ascii _) (fun h => hne (List.map_eq_nil_iff.1 h)) ?_
  intro g hg
  obtain ⟨part, hpart, rfl⟩ := List.mem_map.1 hg
  exact ⟨List.cons_ne_nil _ _, free_lines (hfree part hpart)⟩

/-! ## Parts of a form -/

def partFields (part : FilePart) : List Field :=
  Entity.fieldsOf (partHeader part)

theorem fieldsOf_part (disposition type : List Char) :
    Entity.fieldsOf [("Content-Disposition".toList, disposition), ("Content-Type".toList, type)] =
      [⟨"content-disposition".toList, Glyphs.ofChars disposition⟩,
        ⟨"content-type".toList, Glyphs.ofChars type⟩] := by
  have hdisposition : "Content-Disposition".toList.map Char.toLower =
      "content-disposition".toList := by decide +kernel
  have htype : "Content-Type".toList.map Char.toLower = "content-type".toList := by decide +kernel
  rw [Entity.fieldsOf, List.map_cons, List.map_singleton, hdisposition, htype]

/-- A part whose header can be written, and says no more than a name and the type of a text. -/
structure Leaf (part : FilePart) (type : MediaType) : Prop where
  writable : ∀ f ∈ partHeader part, Field.Writable f.1 f.2
  typed : ∀ default, Entity.typeOf (partFields part) default = .ok type
  single : type.isMessage = false ∧ type.isMultipart = false
  named : (Entity.mk (partFields part) type (.text [])).name? = .ok (some part.name.toList)
  name_ne : part.name ≠ ""
  plain : Field.find? (partFields part) "content-transfer-encoding" = none

/-- A part, as an entity. -/
def entityOf (part : FilePart) (type : MediaType) : Entity :=
  .mk (partFields part) type (.text part.content)

variable {part : FilePart} {type : MediaType}

/-- **A part as far as it goes** is read with its header, and without a line end at the end. -/
theorem Leaf.read_append (h : Leaf part type) (fuel : Nat) (s : Octets) :
    ∃ e, (∀ default, Entity.read (fuel + 1) default
        (Field.lines (partHeader part) ++ [0x0D, 0x0A] :: Line.ofOctets s) = .ok e) ∧
      e.withoutEnd = .mk (partFields part) type (.text (Line.withoutEnd s)) := by
  refine ⟨_, fun default =>
    Entity.read_text h.writable (h.typed default) h.single.1 h.single.2 fuel _, ?_⟩
  rw [Entity.withoutEnd, h.single.2, Line.flatten_ofOctets]
  rfl

/-- **One part** is read up to the line end that belongs to the delimiter after it. -/
theorem Leaf.read_lines (h : Leaf part type) (fuel : Nat) :
    ∃ e, (∀ default, Entity.read (fuel + 1) default (partLines part) = .ok e) ∧
      e.withoutEnd = entityOf part type := by
  obtain ⟨e, hread, he⟩ := h.read_append fuel (part.content ++ [0x0D, 0x0A])
  rw [Line.withoutEnd_append] at he
  exact ⟨e, hread, he⟩

theorem Leaf.name? (h : Leaf part type) :
    (entityOf part type).name? = .ok (some part.name.toList) :=
  h.named

/-- No transfer encoding is declared, so what it holds stays as it is. -/
theorem Leaf.payload (h : Leaf part type) : (entityOf part type).payload = part.content := by
  have hplain : Field.find? (entityOf part type).fields "content-transfer-encoding" = none :=
    h.plain
  rw [Entity.payload, hplain]
  rfl

theorem mapM_read (fuel : Nat) (typed : List (FilePart × MediaType)) :
    (∀ p ∈ typed, Leaf p.1 p.2) →
      ∃ es, (∀ default, (typed.map fun p => partLines p.1).mapM
          (Entity.read (fuel + 1) default) = .ok es) ∧
        es.map Entity.withoutEnd = typed.map fun p => entityOf p.1 p.2 := by
  induction typed with
  | nil => exact fun _ => ⟨[], fun _ => rfl, rfl⟩
  | cons p typed ih =>
    intro h
    obtain ⟨e, hread, he⟩ := (h p List.mem_cons_self).read_lines fuel
    obtain ⟨es, hreads, hes⟩ := ih fun q hq => h q (List.mem_cons_of_mem _ hq)
    refine ⟨e :: es, fun default => ?_, ?_⟩
    · rw [List.map_cons, List.mapM_cons, hread]
      simp only [bind, Except.bind, hreads]
      rfl
    · rw [List.map_cons, List.map_cons, he, hes]

/-- The parts by their names. -/
theorem partsByName_entities (typed : List (FilePart × MediaType)) (h : ∀ p ∈ typed, Leaf p.1 p.2) :
    partsByName (typed.map fun p => entityOf p.1 p.2) =
      .ok (.ofPairs (typed.map fun p => (p.1.name, p.1.content))) := by
  rw [partsByName, Fields.ofPairs]
  generalize (Fields.empty : Fields Octets) = parts
  -- the parts are put in one after another, so the induction is over what was put in before
  induction typed generalizing parts with
  | nil => rfl
  | cons p typed ih =>
    have hleaf := h p List.mem_cons_self
    have hrest := ih (fun q hq => h q (List.mem_cons_of_mem _ hq)) (parts.put p.1.name p.1.content)
    cases hname : p.1.name.toList with
    | nil => exact absurd (String.toList_eq_nil_iff.1 hname) hleaf.name_ne
    | cons c cs =>
      have hread := hleaf.name?
      have hwhole : String.ofList (c :: cs) = p.1.name := by
        rw [← hname, String.ofList_toList]
      rw [hname] at hread
      rw [List.map_cons, List.foldlM_cons, hread]
      simp only [bind, Except.bind, hwhole, hleaf.payload]
      exact hrest

/-- A content type is written in front of the reply as a header line. -/
theorem encode_typeHeader {contentType : String}
    (h : Field.Writable "Content-Type".toList contentType.toList) :
    Text.Charset.encode .ascii ("Content-Type: " ++ contentType ++ "\r\n\r\n") =
      .ok ((Field.lines (Entity.typeHeader contentType.toList)).flatten ++ [0x0D, 0x0A]) := by
  have htext : ("Content-Type: " ++ contentType ++ "\r\n\r\n").toList =
      "Content-Type: ".toList ++ (contentType.toList ++ ['\r', '\n', '\r', '\n']) := by
    rw [String.toList_append, String.toList_append, List.append_assoc]
    rfl
  have hascii : ∀ c ∈ "Content-Type: ".toList ++
      (contentType.toList ++ ['\r', '\n', '\r', '\n']), c.toNat < 0x80 := by
    intro c hc
    rw [List.mem_append, List.mem_append] at hc
    rcases hc with hc | hc | hc
    · exact forall_mem_of_all (p := fun c => c.toNat < 0x80) (by decide +kernel) c hc
    · exact h.value_ascii c hc
    · exact forall_mem_of_all (p := fun c => c.toNat < 0x80) (by decide) c hc
  have hname : encode "Content-Type: ".toList = encode "Content-Type".toList ++ [0x3A, 0x20] := by
    decide +kernel
  show Text.OneOctet.encodeFrom .ascii 0 _ = _
  rw [htext, Text.OneOctet.encodeFrom_ascii hascii, encode_append, encode_append, hname,
    Entity.typeHeader, Field.lines, List.map_singleton, List.flatten_singleton, Field.line]
  simp only [List.append_assoc, List.cons_append, List.nil_append]
  rfl

/-- **The parts of a reply** are its groups of lines, each read as a part of the type that parts
have without a declaration. A reply without groups has no parts. -/
theorem readParts_groups {contentType : String}
    (h : Entity.Announces contentType.toList boundary.toList) {type : MediaType}
    (htype : Entity.typeOf (Entity.fieldsOf (Entity.typeHeader contentType.toList)) .plainText =
      .ok type) (s : Octets) :
    ∃ fuel, readParts contentType s =
      match Entity.groups boundary.toList (Line.ofOctets s) with
      | .inl _ => .error (.transport .malformed none)
      | .inr groups =>
        match groups.mapM (Entity.read (fuel + 1)
            (if type = .digest then .message else .plainText)) with
        | .error fault => .error (.headerField fault)
        | .ok entities => (partsByName (entities.map Entity.withoutEnd)).mapError .headerField := by
  obtain ⟨_, htype', hmultipart⟩ := h.typed
  cases htype.symm.trans htype'
  -- the reply is read behind a header of its own
  have hlines := ofOctets_lines h.writable_typeHeader s
  refine ⟨2 * (Line.ofOctets ((Field.lines (Entity.typeHeader contentType.toList)).flatten ++
    0x0D :: 0x0A :: s)).length, ?_⟩
  rw [readParts, encode_typeHeader h.writable]
  simp only [List.append_assoc, List.cons_append, List.nil_append, Entity.ofOctets]
  rw [hlines, Entity.read_multipart h.writable htype hmultipart h.bounded]
  cases Entity.groups boundary.toList (Line.ofOctets s) with
  | inl text => rfl
  | inr groups =>
    simp only [Entity.content]
    cases groups.mapM (Entity.read _ (if type = .digest then .message else .plainText)) <;> rfl

/-- They are read as they were written, under every content type that announces their boundary. -/
theorem readParts_announced {contentType : String}
    (h : Entity.Announces contentType.toList boundary.toList)
    (typed : List (FilePart × MediaType)) (hne : typed ≠ []) (hleaf : ∀ p ∈ typed, Leaf p.1 p.2)
    (hfree : ∀ p ∈ typed, ∀ l ∈ Line.ofOctets (p.1.content ++ [0x0D, 0x0A]),
      Line.delimiter? boundary.toList l = none) :
    readParts contentType (frame boundary (typed.map Prod.fst)) =
      .ok (.ofPairs (typed.map fun p => (p.1.name, p.1.content))) := by
  have hgroups : Entity.groups boundary.toList
      (Line.ofOctets (frame boundary (typed.map Prod.fst))) =
        .inr (typed.map fun p => partLines p.1) := by
    rw [groups_frame h.printable (fun h => hne (List.map_eq_nil_iff.1 h)), List.map_map]
    · rfl
    · intro part hpart
      obtain ⟨p, hp, rfl⟩ := List.mem_map.1 hpart
      exact (hleaf p hp).writable
    · intro part hpart
      obtain ⟨p, hp, rfl⟩ := List.mem_map.1 hpart
      exact hfree p hp
  obtain ⟨type, htype, -⟩ := h.typed
  obtain ⟨fuel, hparts⟩ := readParts_groups h htype (frame boundary (typed.map Prod.fst))
  obtain ⟨es, hread, hes⟩ := mapM_read fuel typed hleaf
  rw [hparts, hgroups]
  simp only [hread, hes, partsByName_entities typed hleaf]
  rfl

/-- The content type of a form, character by character. -/
theorem toList_formType (boundary : String) :
    (formType boundary).toList = Mime.formValue boundary.toList :=
  String.toList_append

/-- The parts of a form are read as they were written. -/
theorem readParts_frame (hb : IsTokenText boundary.toList) (hboundary : boundary ≠ "")
    (typed : List (FilePart × MediaType)) (hne : typed ≠ []) (hleaf : ∀ p ∈ typed, Leaf p.1 p.2)
    (hfree : ∀ p ∈ typed, ∀ l ∈ Line.ofOctets (p.1.content ++ [0x0D, 0x0A]),
      Line.delimiter? boundary.toList l = none) :
    readParts (formType boundary) (frame boundary (typed.map Prod.fst)) =
      .ok (.ofPairs (typed.map fun p => (p.1.name, p.1.content))) := by
  have hdigits : boundary.toList ≠ [] := fun h => hboundary (String.toList_eq_nil_iff.1 h)
  refine readParts_announced ?_ typed hne hleaf hfree
  rw [toList_formType]
  exact Entity.announces_form hb hdigits

/-! ## Messages -/

/-- **What is read of a reply in parts.** -/
theorem decode_of_isMultipart {contentType : String} {body : Octets}
    (h : isMultipart (some contentType) = true) :
    decode (some contentType) body =
      match readParts contentType body with
      | .error e => .error e
      | .ok parts =>
        match parts.get? "header" with
        | none => .error (.transport .noHeaderPart none)
        | some s => (readHeader s).map
            fun header => ⟨header, .octets ((parts.get? "payload").getD [])⟩ := by
  unfold decode
  rw [h]
  simp only [bind, Except.bind]
  cases readParts contentType body with
  | error e => rfl
  | ok parts =>
    simp only
    cases parts.get? "header" with
    | none => rfl
    | some s =>
      simp only
      cases readHeader s <;> rfl

/-- Any other reply is refused. -/
theorem decode_of_not_isMultipart {contentType : Option String} {body : Octets}
    (h : isMultipart contentType = false) :
    decode contentType body = .error (.transport (.notMultipart contentType) none) := by
  unfold decode
  rw [h]
  cases contentType <;> rfl

/-- Whether a part is a leaf does not depend on what it holds. -/
theorem Leaf.of_content {name contentType : String}
    (h : Leaf ⟨name, [], contentType⟩ type) (content : Octets) :
    Leaf ⟨name, content, contentType⟩ type :=
  ⟨h.writable, h.typed, h.single, h.named, h.name_ne, h.plain⟩

def headerType : MediaType := ⟨"application".toList, "ld+json".toList⟩

def payloadType : MediaType := ⟨"application".toList, "octet-stream".toList⟩

theorem leaf_header (content : Octets) :
    Leaf ⟨"header", content, "application/ld+json"⟩ headerType := by
  refine Leaf.of_content ⟨?_, fun default => (Entity.typeOf_of_declared ?_ default).trans
    (ok_of_toOption ?_), ?_, ok_of_toOption ?_, ?_, ?_⟩ content
  all_goals decide +kernel

theorem leaf_payload (content : Octets) :
    Leaf ⟨"payload", content, "application/octet-stream"⟩ payloadType := by
  refine Leaf.of_content ⟨?_, fun default => (Entity.typeOf_of_declared ?_ default).trans
    (ok_of_toOption ?_), ?_, ok_of_toOption ?_, ?_, ?_⟩ content
  all_goals decide +kernel

section Header

variable (header : Header)

/-- Header fields as a JSON object. -/
def headerJson : Json :=
  .obj (header.entries.map fun (name, value) => (name, .str value))

theorem readable_headerJson : Json.Readable Json.Dialect.header.depth (headerJson header) := by
  have hnames : (header.entries.map fun (name, value) => (name, Json.str value)).map Prod.fst =
      header.entries.map Prod.fst := by
    rw [List.map_map]
    rfl
  refine .obj (show Json.deeper (some 994) = some (some 993) from rfl) ?_ (hnames ▸ header.distinct)
  intro p hp
  obtain ⟨⟨name, value⟩, -, rfl⟩ := List.mem_map.1 hp
  exact .str value

theorem ascii_headerJson :
    ∀ c ∈ Json.writeChars .plain (headerJson header), 0 < c.toNat ∧ c.toNat < 0x80 := by
  intro c hc
  obtain ⟨hlow, hhigh⟩ := (readable_headerJson header).printable c hc
  exact ⟨Nat.lt_of_lt_of_le (by decide) hlow, Nat.lt_succ_of_lt hhigh⟩

theorem exists_brace_headerJson :
    ∃ r, Json.writeChars .plain (headerJson header) = '{' :: r := by
  rw [headerJson, Json.writeChars]
  exact ⟨_, rfl⟩

/-- The octets of a header begin with a brace. -/
theorem head?_headerJson :
    (Text.utf8 ((headerJson header).write .plain)).head? = some 0x7B := by
  obtain ⟨r, hr⟩ := exists_brace_headerJson header
  rw [Text.utf8, Json.write, String.toList_ofList, hr]
  rfl

/-- A header is one line. -/
theorem isLineEnd_headerJson :
    ∀ b ∈ Text.utf8 ((headerJson header).write .plain), isLineEnd b = false := by
  rw [Text.utf8, Json.write, String.toList_ofList]
  intro b hb
  obtain ⟨x, hx, hnumber⟩ := Text.Utf8.mem_encode_ascii
    (fun x hx => (ascii_headerJson header x hx).2) hb
  have hlow : 0x20 ≤ b.toNat := hnumber ▸ ((readable_headerJson header).printable x hx).1
  exact Line.isLineEnd_of_le hlow

/-- Octets that begin so are UTF-8. -/
theorem decodeJson_of_brace {b : UInt8} (hb : b ≠ 0) (r : Octets) :
    Text.decodeJson (0x7B :: b :: r) = Text.Utf8.decode (0x7B :: b :: r) := by
  cases r with
  | nil => exact if_neg hb
  | cons c r =>
    cases r with
    | nil => rfl
    | cons d r => exact if_neg hb

/-- A text in ASCII that begins like an object is taken for UTF-8. A zero for its second character
would be a sign of a wider encoding. -/
theorem decodeJson_encode {cs : List Char} (h : ∀ c ∈ cs, 0 < c.toNat ∧ c.toNat < 0x80)
    (hbrace : cs.head?.all (· = '{') = true) : Text.decodeJson (encode cs) = .ok cs := by
  suffices hutf8 : Text.decodeJson (encode cs) = Text.Utf8.decode (encode cs) by
    rw [hutf8, Text.Utf8.decode_encode]
  cases cs with
  | nil => rfl
  | cons c cs =>
    obtain rfl := of_decide_eq_true hbrace
    have hencode : encode ('{' :: cs) = 0x7B :: encode cs := rfl
    have hoctets : ∀ b ∈ encode cs, b ≠ 0 := by
      rintro b hb rfl
      have hcs : ∀ c ∈ cs, 0 < c.toNat ∧ c.toNat < 0x80 :=
        fun c hc => h c (List.mem_cons_of_mem _ hc)
      obtain ⟨c, hc, hnumber⟩ := Text.Utf8.mem_encode_ascii (fun c hc => (hcs c hc).2) hb
      exact absurd (hnumber ▸ (hcs c hc).1) (by decide)
    rw [hencode]
    cases hs : encode cs with
    | nil => rfl
    | cons b r => exact decodeJson_of_brace (hoctets b (hs ▸ List.mem_cons_self)) r

/-- Texts are kept as they are; only other values would be written out again. -/
theorem fieldTexts_headerJson : (header.entries.map fun (name, value) => (name, Json.str value)).map
    (fun (name, v) => (name, fieldText v)) = header.entries := by
  rw [List.map_map]
  exact List.map_id _

/-- **The header part gives the header fields.** -/
theorem readHeader_files :
    readHeader (Text.utf8 ((headerJson header).write .plain)) = .ok header := by
  have hreadable := readable_headerJson header
  have hdecode : Text.decodeJson (Text.utf8 ((headerJson header).write .plain)) =
      .ok (Json.writeChars .plain (headerJson header)) := by
    rw [Text.utf8, Json.write, String.toList_ofList]
    refine decodeJson_encode (ascii_headerJson header) ?_
    obtain ⟨r, hr⟩ := exists_brace_headerJson header
    rw [hr]
    rfl
  rw [readHeader, readHeaderValue, hdecode]
  simp only [hreadable.read_writeChars Json.Style.faithful_plain]
  show Except.ok (Fields.ofPairs _) = _
  rw [fieldTexts_headerJson, Fields.ofPairs_entries]

/-- A header part is one line, which is no delimiter. -/
theorem free_header (boundary : List Char) :
    ∀ l ∈ Line.ofOctets (Text.utf8 ((headerJson header).write .plain) ++ [0x0D, 0x0A]),
      Line.delimiter? boundary l = none := by
  intro l hl
  rw [Line.ofOctets_line (isLineEnd_headerJson header), Line.ofOctets, List.mem_singleton] at hl
  subst hl
  refine Line.delimiter?_eq_none_of_head (b := 0x7B) ?_ (by decide)
  rw [List.head?_append, head?_headerJson]
  rfl

end Header

theorem isMultipart_formType (boundary : String) :
    isMultipart (some (formType boundary)) = true := by
  rw [isMultipart, Option.any_some, toList_formType]
  rfl

/-- A content type by which a reply is known to be in parts, and read with this boundary. -/
structure Announces (contentType boundary : String) : Prop where
  multipart : isMultipart (some contentType) = true
  entity : Entity.Announces contentType.toList boundary.toList

theorem announces_formType (hb : IsTokenText boundary.toList) (hboundary : boundary ≠ "") :
    Announces (formType boundary) boundary where
  multipart := isMultipart_formType boundary
  entity := by
    rw [toList_formType]
    exact Entity.announces_form hb fun h => hboundary (String.toList_eq_nil_iff.1 h)

def headerPart (header : Header) : FilePart :=
  ⟨"header", Text.utf8 ((headerJson header).write .plain), "application/ld+json"⟩

/-- The parts of a message, with their types. -/
def typedFiles (header : Header) (payload : Payload) : List (FilePart × MediaType) :=
  [(⟨"header", Text.utf8 ((headerJson header).write .plain), "application/ld+json"⟩, headerType),
    (⟨"payload", payload.wire, "application/octet-stream"⟩, payloadType)]

theorem leaf_typedFiles (header : Header) (payload : Payload) :
    ∀ p ∈ typedFiles header payload, Leaf p.1 p.2 :=
  List.forall_mem_cons.2 ⟨leaf_header _, List.forall_mem_singleton.2 (leaf_payload _)⟩

section Boundary

variable {boundary : String} (header : Header) (payload : Payload)
  (hfree : ¬ Text.utf8 ("--" ++ boundary) <:+: payload.wire)
include hfree

/-- No line of a message is a delimiter if the mark does not occur in the payload. -/
theorem free_typedFiles (hb : IsPrintableText boundary.toList) :
    ∀ p ∈ typedFiles header payload, ∀ l ∈ Line.ofOctets (p.1.content ++ [0x0D, 0x0A]),
      Line.delimiter? boundary.toList l = none := by
  rw [utf8_mark] at hfree
  refine List.forall_mem_cons.2 ⟨free_header header boundary.toList, List.forall_mem_singleton.2 ?_⟩
  exact fun l hl => Line.delimiter?_eq_none_of_free hfree (isLineEnd_mark hb) hl

/-- **Messages read back** under every content type that announces their boundary. -/
theorem decode_announced {contentType : String} (h : Announces contentType boundary) :
    decode (some contentType) (frame boundary (filesOf header payload)) =
      .ok ⟨header, .octets payload.wire⟩ := by
  have hread : readParts contentType (frame boundary (filesOf header payload)) =
      .ok (.ofPairs [("header", Text.utf8 ((headerJson header).write .plain)),
        ("payload", payload.wire)]) :=
    readParts_announced h.entity (typedFiles header payload) (List.cons_ne_nil _ _)
      (leaf_typedFiles header payload) (free_typedFiles header payload hfree h.entity.printable)
  have hpart : (Fields.ofPairs [("header", Text.utf8 ((headerJson header).write .plain)),
      ("payload", payload.wire)]).get? "header" =
        some (Text.utf8 ((headerJson header).write .plain)) := rfl
  rw [decode_of_isMultipart h.multipart]
  simp only [hread, hpart, readHeader_files]
  rfl

end Boundary

/-- **Forms read back.** A message that is framed as a form, with a boundary of thirty-two
hexadecimal digits whose mark does not occur in the payload, is read back with the same header
fields in the same order, and with the octets of its payload. -/
theorem decode_frame (header : Header) (payload : Payload) (boundary : String)
    (hlength : boundary.toList.length = 32)
    (hdigits : ∀ c ∈ boundary.toList, (Text.hexValue? c).isSome = true)
    (hfree : ¬ Text.utf8 ("--" ++ boundary) <:+: payload.wire) :
    decode (some (formType boundary)) (frame boundary (filesOf header payload)) =
      .ok ⟨header, .octets payload.wire⟩ := by
  have hb : IsHexText boundary.toList := hdigits
  have hboundary : boundary ≠ "" := by
    rintro rfl
    cases hlength
  rw [utf8_mark] at hfree
  -- the two parts are leaves, and no line of either is a delimiter
  have hparts := readParts_frame hb hboundary
    [(⟨"header", Text.utf8 ((headerJson header).write .plain), "application/ld+json"⟩, headerType),
      (⟨"payload", payload.wire, "application/octet-stream"⟩, payloadType)]
    (List.cons_ne_nil _ _) ?_ ?_
  · have hread : readParts (formType boundary) (frame boundary (filesOf header payload)) =
        .ok (.ofPairs [("header", Text.utf8 ((headerJson header).write .plain)),
          ("payload", payload.wire)]) := hparts
    rw [decode]
    simp only [hread, bind, Except.bind]
    rw [show (Fields.ofPairs [("header", Text.utf8 ((headerJson header).write .plain)),
      ("payload", payload.wire)]).get? "header" =
        some (Text.utf8 ((headerJson header).write .plain)) from rfl]
    simp only [readHeader_files]
    · rfl
    · exact isMultipart_formType boundary
  · intro p hp
    rw [List.mem_cons, List.mem_singleton] at hp
    rcases hp with rfl | rfl
    · exact leaf_header _
    · exact leaf_payload _
  · intro p hp
    rw [List.mem_cons, List.mem_singleton] at hp
    rcases hp with rfl | rfl
    · exact free_header header boundary.toList
    · exact fun l hl => Line.delimiter?_eq_none_of_free hfree (isLineEnd_mark hb) hl

/-- A header beyond ASCII, and octets with line ends of every kind. -/
theorem decode_frame_of_lineEnds :
    decode (some (formType "0123456789abcdef0123456789ABCDEF"))
      (frame "0123456789abcdef0123456789ABCDEF"
        (filesOf (.ofPairs [("@type", "ids:DescriptionRequestMessage"), ("é", "\"\n𝄞")])
          (.octets [0x2D, 0x2D, 0x0D, 0xFF, 0x0A, 0x0D, 0x0D, 0x0A]))) =
      .ok ⟨.ofPairs [("@type", "ids:DescriptionRequestMessage"), ("é", "\"\n𝄞")],
        .octets [0x2D, 0x2D, 0x0D, 0xFF, 0x0A, 0x0D, 0x0D, 0x0A]⟩ :=
  decode_frame _ _ _ (by decide +kernel) (forall_mem_of_all (by decide +kernel))
    (by decide +kernel)

end Multipart

end Dataspace
