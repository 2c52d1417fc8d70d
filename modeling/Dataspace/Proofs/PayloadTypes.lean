import Dataspace.Proofs.OpenForm
import Dataspace.Proofs.PlainHeader
import Mathlib.Data.List.TakeWhile

/-!
# Payloads of every type

A reply says of what type its payload is, and the reader of entities goes by that. Types in parts
and messages have a structure of their own, which the reader takes apart. For all other types the
octets of the payload are what stands between its header and the next delimiter.

* **`mediaTypeShown_type`**, **`ofShown_type`**, **`parameter?_type`** — a type without parameters
  is understood as it stands, and gives no boundary.
* **`read_message`** — a message is read into parts, whatever it is.
* **`Declares.exists_decode_eq`** — a reply comes to what the reading of its payload part comes to.
* **`Declares.decode_of_text`**, **`decode_of_multipart`**, **`decode_of_message`** — the three
  kinds of types.
* **`decode_typedPayload`** — what becomes of a payload, type by type.
-/

namespace Dataspace

open Text (Octets)

/-! ## Types without parameters -/

namespace Mime

variable {s main sub : List Char}

/-- The name of a type or of a subtype: printable characters, none of which ends a token. -/
structure IsTypeName (s : List Char) : Prop where
  ne_nil : s ≠ []
  range : ∀ c ∈ s, 0x21 ≤ c.toNat ∧ c.toNat ≤ 0x7E
  not_mem : ∀ c ∈ s, c ∉ Token.tokenEnds

instance : Decidable (IsTypeName s) :=
  decidable_of_iff
    (s ≠ [] ∧ s.all (fun c => decide (0x21 ≤ c.toNat ∧ c.toNat ≤ 0x7E)) ∧
      s.all fun c => decide (c ∉ Token.tokenEnds))
    ⟨fun ⟨hne, hrange, hends⟩ => ⟨hne, forall_mem_of_all hrange, forall_mem_of_all hends⟩,
      fun h => ⟨h.ne_nil, List.all_eq_true.2 fun c hc => decide_eq_true (h.range c hc),
        List.all_eq_true.2 fun c hc => decide_eq_true (h.not_mem c hc)⟩⟩

namespace IsTypeName

theorem ne (h : IsTypeName s) {c : Char} (hc : c ∈ s) {x : Char} (hx : x ∈ Token.tokenEnds) :
    c ≠ x :=
  fun heq => h.not_mem c hc (heq ▸ hx)

theorem noGap (h : IsTypeName s) (r : Glyphs) : Token.NoGap (Glyphs.ofChars s ++ r) := by
  cases s with
  | nil => exact absurd rfl h.ne_nil
  | cons c s =>
    exact Token.noGap_cons (h.range c List.mem_cons_self)
      (h.ne List.mem_cons_self (by decide)) _

/-- Such a name is a token, up to the end of the text or to a slash. -/
theorem token_append (h : IsTypeName s) {r : Glyphs}
    (hends : r.head?.any (fun u => !u.isOneOf Token.tokenEnds) = false) (hrest : Token.NoGap r) :
    Token.token (Glyphs.ofChars s ++ r) = some (Glyphs.ofChars s, r) := by
  have hinside : ∀ u ∈ Glyphs.ofChars s, u.isOneOf Token.tokenEnds = false := by
    intro u hu
    obtain ⟨c, hc, rfl⟩ := List.mem_map.1 hu
    simpa [Glyph.isOneOf] using h.not_mem c hc
  exact Token.token_append (Parameter.ofChars_ne_nil h.ne_nil) hinside hends (h.noGap r) hrest

theorem slash_not_mem_toLower (h : IsTypeName s) : '/' ∉ s.map Char.toLower := by
  have hlower : ∀ n < 0x7F, (Char.ofNat n).toLower = '/' → Char.ofNat n = '/' := by decide
  intro hmem
  obtain ⟨c, hc, heq⟩ := List.mem_map.1 hmem
  have hslash := hlower c.toNat (Nat.lt_succ_of_le (h.range c hc).2)
  rw [Char.ofNat_toNat] at hslash
  exact h.ne hc (by decide) (hslash heq)

end IsTypeName

/-- A type and a subtype as they stand. -/
def typeText (main sub : List Char) : List Char :=
  main ++ '/' :: sub

section TypeText

variable (hmain : IsTypeName main) (hsub : IsTypeName sub)

include hmain hsub

theorem range_typeText : ∀ c ∈ typeText main sub, 0x21 ≤ c.toNat ∧ c.toNat ≤ 0x7E := by
  have hslash : 0x21 ≤ '/'.toNat ∧ '/'.toNat ≤ 0x7E := by decide
  exact List.forall_mem_append.2 ⟨hmain.range, List.forall_mem_cons.2 ⟨hslash, hsub.range⟩⟩

/-- Of the characters that end a token, none but the slash stands in it. -/
theorem ne_typeText {x : Char} (hx : x ∈ Token.tokenEnds) (hslash : '/' ≠ x) :
    ∀ c ∈ typeText main sub, c ≠ x :=
  List.forall_mem_append.2 ⟨fun _ hc => hmain.ne hc hx,
    List.forall_mem_cons.2 ⟨hslash, fun _ hc => hsub.ne hc hx⟩⟩

theorem writable_typeText : Field.Writable "Content-Type".toList (typeText main sub) where
  name_ne_nil := by decide
  name_mem := forall_mem_of_all (by decide +kernel)
  value_mem := by
    intro c hc
    have hrange := range_typeText hmain hsub c hc
    exact ⟨Nat.le_of_succ_le hrange.1, hrange.2⟩
  value_head := fun hspace =>
    absurd (range_typeText hmain hsub ' ' (List.mem_of_head? hspace)).1 (by decide)

/-- **The field as it shows.** -/
theorem Field.mediaTypeShown_type :
    mediaTypeShown (Glyphs.ofChars (typeText main sub)) = .ok (typeText main sub) := by
  have hvalue : Glyphs.ofChars (typeText main sub) =
      Glyphs.ofChars main ++ .char '/' :: Glyphs.ofChars sub := List.map_append
  have hfirst : Token.token (Glyphs.ofChars main ++ .char '/' :: Glyphs.ofChars sub) =
      some (Glyphs.ofChars main, .char '/' :: Glyphs.ofChars sub) :=
    hmain.token_append rfl rfl
  have hsecond : Token.token (Glyphs.ofChars sub) = some (Glyphs.ofChars sub, []) := by
    have htoken := hsub.token_append (r := []) rfl rfl
    rwa [List.append_nil] at htoken
  have hrest : looseShown [] = .ok [] := rfl
  rw [hvalue, mediaTypeShown, tokenThen, hfirst]
  simp only [tokenThen, hsecond, hrest, Except.map, List.append_nil]
  rw [← hvalue, Glyphs.readable_ofChars]

theorem stripBy_typeText : Text.stripBy Text.isBlank (typeText main sub) = typeText main sub := by
  have hrange := range_typeText hmain hsub
  obtain ⟨x, m, rfl⟩ := List.exists_cons_of_ne_nil hmain.ne_nil
  have hlast : typeText (x :: m) sub =
      x :: ((m ++ '/' :: sub.dropLast) ++ [sub.getLast hsub.ne_nil]) := by
    rw [typeText, List.append_assoc, List.cons_append, List.cons_append,
      List.dropLast_append_getLast]
  rw [hlast] at hrange ⊢
  exact Shown.stripBy_eq (isBlank_of_printable (hrange _ List.mem_cons_self))
    (isBlank_of_printable (hrange _ (List.mem_cons_of_mem _ (List.mem_append_right _
      (List.mem_singleton.2 rfl))))) _

/-- **The type**, in lower case. -/
theorem MediaType.ofShown_type :
    MediaType.ofShown (typeText main sub) = ⟨main.map Char.toLower, sub.map Char.toLower⟩ := by
  have hwhole : (typeText main sub).takeWhile (fun c => decide (c ≠ ';')) = typeText main sub :=
    List.takeWhile_eq_self_iff.2 fun c hc =>
      decide_eq_true (ne_typeText hmain hsub (by decide) (by decide) c hc)
  have hlower : (typeText main sub).map Char.toLower =
      main.map Char.toLower ++ '/' :: sub.map Char.toLower := List.map_append
  rw [ofShown, hwhole, stripBy_typeText hmain hsub, hlower,
    Text.splitOn_append hmain.slash_not_mem_toLower hsub.slash_not_mem_toLower]

/-- **It has no boundary.** The only entry is the type itself. -/
theorem Shown.parameter?_type : parameter? "boundary" (typeText main sub) = none := by
  have hentries : entries false none (typeText main sub) = [typeText main sub] :=
    entries_single (fun c hc => ⟨ne_typeText hmain hsub (by decide) (by decide) c hc,
      ne_typeText hmain hsub (by decide) (by decide) c hc⟩) none
  have hspan : (typeText main sub).span (fun c => decide (c ≠ '=')) = (typeText main sub, []) := by
    have hname : ∀ c ∈ typeText main sub, decide (c ≠ '=') = true := fun c hc =>
      decide_eq_true (ne_typeText hmain hsub (by decide) (by decide) c hc)
    rw [List.span_eq_takeWhile_dropWhile, List.takeWhile_eq_self_iff.2 hname,
      List.dropWhile_eq_nil_iff.2 hname]
  -- a name with a slash in it is another one
  have hname : (nameAndValue (typeText main sub)).1 ≠ "boundary".toList := by
    rw [nameAndValue, hspan]
    simp only [stripBy_typeText hmain hsub]
    intro heq
    have hslash : '/' ∈ (typeText main sub).map Char.toLower :=
      List.mem_map.2 ⟨'/', List.mem_append_right _ List.mem_cons_self, by decide⟩
    rw [heq] at hslash
    revert hslash
    decide
  rw [parameter?, hentries, List.map_singleton, List.find?_cons]
  simp only [hname, decide_false]
  rfl

end TypeText

/-! ## Messages as bodies -/

namespace Entity

variable {fields : List (List Char × List Char)} {default type : MediaType}
  (hwritable : ∀ f ∈ fields, Field.Writable f.1 f.2)
  (htype : typeOf (fieldsOf fields) default = .ok type)

include hwritable htype

/-- An entity has the fields of its header, whatever is made of the body. -/
theorem fields_of_read {fuel : Nat} {body : List Octets} {e : Entity}
    (h : read (fuel + 1) default (Field.lines fields ++ [0x0D, 0x0A] :: body) = .ok e) :
    e.fields = fieldsOf fields := by
  rw [read_declared hwritable htype] at h
  -- however the body is read, it is put behind these fields
  split at h
  · obtain ⟨_, -, rfl⟩ := map_eq_ok h
    rfl
  split at h
  · obtain ⟨_, -, rfl⟩ := map_eq_ok h
    rfl
  split at h
  · split at h
    · cases h
    · cases h
      rfl
    · split at h
      · cases h
        rfl
      · obtain ⟨_, -, rfl⟩ := map_eq_ok h
        rfl
  · cases h
    rfl

/-- **A message is read into parts**, whatever it is. Only an asterisk in it can keep it from being
read. -/
theorem read_message (hmessage : type.isMessage = true) (fuel : Nat) (body : List Octets) :
    (∃ entities, read (fuel + 1) default (Field.lines fields ++ [0x0D, 0x0A] :: body) =
      .ok (mk (fieldsOf fields) type (.parts entities))) ∨
    (∃ fault, read (fuel + 1) default (Field.lines fields ++ [0x0D, 0x0A] :: body) =
      .error fault) ∧ ¬ Field.PlainLines body := by
  rw [read_declared hwritable htype]
  by_cases hstatus : type = .deliveryStatus
  · rw [if_pos hstatus]
    cases hblocks : (blocks body.length body).mapM (read fuel .plainText) with
    | ok entities => exact .inl ⟨entities, rfl⟩
    | error fault =>
      refine .inr ⟨⟨fault, rfl⟩, fun hplain => ?_⟩
      obtain ⟨es, hes, -⟩ := exists_mapM_eq_ok fun g (hg : g ∈ blocks body.length body) =>
        read_of_plain fuel .plainText (hplain.of_subset (subset_of_mem_blocks _ hg))
      cases hes.symm.trans hblocks
  · rw [if_neg hstatus, if_pos hmessage]
    cases hinner : read fuel .plainText body with
    | ok e => exact .inl ⟨[e], rfl⟩
    | error fault =>
      refine .inr ⟨⟨fault, rfl⟩, fun hplain => ?_⟩
      obtain ⟨e, he, -⟩ := read_of_plain fuel .plainText hplain
      cases he.symm.trans hinner

end Entity

end Mime

/-! ## The payload part -/

namespace Multipart

open Mime

variable {part : FilePart} {type : MediaType} {main sub : String} {payload : Octets}

/-- Header and payload by their names. -/
theorem partsByName_pair (header : Header) {e : Entity}
    (hname : e.name? = .ok (some "payload".toList)) :
    partsByName [entityOf (headerPart header) headerType, e] =
      .ok (.ofPairs [("header", (headerPart header).content), ("payload", e.payload)]) := by
  have hfront := partsByName_entities [(headerPart header, headerType)]
    (List.forall_mem_singleton.2 (leaf_header _))
  exact partsByName_append hfront hname

/-- A payload part that declares a type, of whatever kind, and nothing else. -/
structure Declares (part : FilePart) (type : MediaType) : Prop where
  writable : ∀ f ∈ partHeader part, Field.Writable f.1 f.2
  typed : ∀ default, Entity.typeOf (partFields part) default = .ok type
  unbounded : Entity.boundaryOf (partFields part) = .ok none
  named : ∀ e : Entity, e.fields = partFields part → e.name? = .ok (some "payload".toList)
  plain : Field.find? (partFields part) "content-transfer-encoding" = none

namespace Declares

theorem payload_text (h : Declares part type) (content : Octets) :
    (Entity.mk (partFields part) type (.text content)).payload = content := by
  simp only [Entity.payload, Entity.content, Entity.fields, h.plain]

/-- Header and payload are the two groups of lines. -/
theorem groups_eq (h : Declares part type) {boundary : String}
    (hprintable : IsPrintableText boundary.toList) (header : Header)
    (hfree : ¬ Text.utf8 ("--" ++ boundary) <:+: part.content) :
    Entity.groups boundary.toList (Line.ofOctets (frame boundary [headerPart header, part])) =
      .inr [partLines (headerPart header), partLines part] := by
  rw [utf8_mark] at hfree
  refine groups_frame hprintable (List.cons_ne_nil _ _) ?_ ?_
  · exact List.forall_mem_cons.2 ⟨(leaf_header _).writable, List.forall_mem_singleton.2 h.writable⟩
  · exact List.forall_mem_cons.2 ⟨free_header header boundary.toList,
      List.forall_mem_singleton.2 fun l hl =>
        Line.delimiter?_eq_none_of_free hfree (isLineEnd_mark hprintable) hl⟩

/-- **What the reply comes to** is what the reading of its payload part comes to. -/
theorem exists_decode_eq (h : Declares part type) {contentType boundary : String}
    (hannounces : Announces contentType boundary) (header : Header)
    (hfree : ¬ Text.utf8 ("--" ++ boundary) <:+: part.content) :
    ∃ fuel default, decode (some contentType) (frame boundary [headerPart header, part]) =
      match Entity.read (fuel + 1) default (partLines part) with
      | .error fault => .error (.headerField fault)
      | .ok e => .ok ⟨header, .octets e.withoutEnd.payload⟩ := by
  obtain ⟨kind, hkind, -⟩ := hannounces.entity.typed
  obtain ⟨fuel, hparts⟩ := readParts_groups hannounces.entity hkind
    (frame boundary [headerPart header, part])
  refine ⟨fuel, if kind = .digest then .message else .plainText, ?_⟩
  generalize (if kind = .digest then MediaType.message else .plainText) = default at hparts ⊢
  obtain ⟨first, hfirst, hheader⟩ := (leaf_header (headerPart header).content).read_lines fuel
  have hread : Entity.read (fuel + 1) default (partLines (headerPart header)) = .ok first :=
    hfirst default
  rw [decode_of_isMultipart hannounces.multipart, hparts,
    h.groups_eq hannounces.entity.printable header hfree]
  simp only [List.mapM_cons, List.mapM_nil, hread, bind, Except.bind]
  cases hsecond : Entity.read (fuel + 1) default (partLines part) with
  | error fault => rfl
  | ok e =>
    have hname : e.withoutEnd.name? = .ok (some "payload".toList) := by
      refine h.named _ ?_
      rw [Entity.fields_withoutEnd]
      exact Entity.fields_of_read h.writable (h.typed _) hsecond
    have hbyName : partsByName ([first, e].map Entity.withoutEnd) =
        .ok (.ofPairs [("header", (headerPart header).content),
          ("payload", e.withoutEnd.payload)]) := by
      rw [List.map_cons, hheader]
      exact partsByName_pair header hname
    simp only [pure, Except.pure, hbyName, Except.mapError]
    show (readHeader (headerPart header).content).map _ = _
    rw [headerPart, readHeader_files]
    rfl

section Kinds

variable {contentType boundary : String} (h : Declares part type)
  (hannounces : Announces contentType boundary) (header : Header)
  (hfree : ¬ Text.utf8 ("--" ++ boundary) <:+: part.content)

include h hannounces hfree

/-- **A payload without a structure** is what was sent. -/
theorem decode_of_text (hmessage : type.isMessage = false) (hmultipart : type.isMultipart = false) :
    decode (some contentType) (frame boundary [headerPart header, part]) =
      .ok ⟨header, .octets part.content⟩ := by
  obtain ⟨fuel, default, hdecode⟩ := h.exists_decode_eq hannounces header hfree
  rw [hdecode, partLines, Entity.read_text h.writable (h.typed default) hmessage hmultipart]
  have hcontent : (Entity.mk (partFields part) type
      (.text (part.content ++ [0x0D, 0x0A]))).withoutEnd.payload = part.content := by
    rw [Entity.withoutEnd, hmultipart, Line.withoutEnd_append]
    exact h.payload_text part.content
  rw [Line.flatten_ofOctets]
  exact congrArg (fun content => Except.ok (Response.mk header (.octets content))) hcontent

/-- **A payload in parts** that has no boundary is a text after all, but the line end in front of
the delimiter stays with it. -/
theorem decode_of_multipart (hmultipart : type.isMultipart = true) :
    decode (some contentType) (frame boundary [headerPart header, part]) =
      .ok ⟨header, .octets (part.content ++ [0x0D, 0x0A])⟩ := by
  obtain ⟨hmessage, hstatus⟩ := Entity.isMessage_of_isMultipart hmultipart
  have hboundary : Entity.boundaryOf (Entity.fieldsOf (partHeader part)) = .ok none := h.unbounded
  obtain ⟨fuel, default, hdecode⟩ := h.exists_decode_eq hannounces header hfree
  rw [hdecode, partLines, Entity.read_declared h.writable (h.typed default)]
  have hcontent : (Entity.mk (partFields part) type (.text (part.content ++
      [0x0D, 0x0A]))).withoutEnd.payload = part.content ++ [0x0D, 0x0A] := by
    rw [Entity.withoutEnd, hmultipart]
    exact h.payload_text _
  simp only [hboundary, hstatus, hmessage, hmultipart, if_false, if_true, Bool.false_eq_true,
    Line.flatten_ofOctets]
  exact congrArg (fun content => Except.ok (Response.mk header (.octets content))) hcontent

/-- **A message as payload** is lost, or the reply is refused for a field of that message. -/
theorem decode_of_message (hmessage : type.isMessage = true) :
    decode (some contentType) (frame boundary [headerPart header, part]) =
        .ok ⟨header, .octets []⟩ ∨
      (∃ fault, decode (some contentType) (frame boundary [headerPart header, part]) =
        .error (.headerField fault)) ∧ 0x2A ∈ part.content := by
  obtain ⟨fuel, default, hdecode⟩ := h.exists_decode_eq hannounces header hfree
  rw [hdecode, partLines]
  rcases Entity.read_message h.writable (h.typed default) hmessage fuel
    (Line.ofOctets (part.content ++ [0x0D, 0x0A])) with ⟨entities, hread⟩ | ⟨⟨fault, hread⟩, hstar⟩
  · rw [hread]
    exact .inl rfl
  · rw [hread]
    refine .inr ⟨⟨fault, rfl⟩, of_not_not fun hnone => hstar ?_⟩
    -- the line end behind the message holds none
    refine Field.plainLines_ofOctets fun hmem => ?_
    exact (List.mem_append.1 hmem).elim hnone (by decide)

end Kinds

end Declares

/-- The payload part of a message whose payload is of this type. -/
def typedPart (main sub : String) (payload : Octets) : FilePart :=
  ⟨"payload", payload, main ++ "/" ++ sub⟩

theorem partHeader_typedPart (main sub : String) (payload : Octets) :
    partHeader (typedPart main sub payload) =
      [("Content-Disposition".toList, "form-data; name=\"payload\"".toList),
        ("Content-Type".toList, typeText main.toList sub.toList)] := by
  have hname : "form-data; name=\"" ++ "payload" ++ "\"" = "form-data; name=\"payload\"" := by
    decide +kernel
  have htype : (main ++ "/" ++ sub).toList = typeText main.toList sub.toList := by
    rw [String.toList_append, String.toList_append, List.append_assoc]
    rfl
  rw [partHeader, typedPart, hname, htype]

theorem partFields_typedPart (main sub : String) (payload : Octets) :
    partFields (typedPart main sub payload) =
      [⟨"content-disposition".toList, Glyphs.ofChars "form-data; name=\"payload\"".toList⟩,
        ⟨"content-type".toList, Glyphs.ofChars (typeText main.toList sub.toList)⟩] := by
  rw [partFields, partHeader_typedPart, fieldsOf_part]

theorem find?_typedPart (main sub : String) (payload : Octets) :
    Field.find? (partFields (typedPart main sub payload)) "content-type" =
      some (Glyphs.ofChars (typeText main.toList sub.toList)) := by
  rw [partFields_typedPart]
  rfl

theorem declares_typedPart (hmain : IsTypeName main.toList) (hsub : IsTypeName sub.toList)
    (payload : Octets) :
    Declares (typedPart main sub payload)
      ⟨main.toList.map Char.toLower, sub.toList.map Char.toLower⟩ where
  writable := by
    rw [partHeader_typedPart]
    exact List.forall_mem_cons.2 ⟨by decide +kernel,
      List.forall_mem_singleton.2 (writable_typeText hmain hsub)⟩
  typed := by
    intro default
    rw [Entity.typeOf, find?_typedPart]
    simp only [Field.mediaTypeShown_type hmain hsub, Except.map, MediaType.ofShown_type hmain hsub]
  unbounded := by
    rw [Entity.boundaryOf, find?_typedPart]
    simp only [Field.mediaTypeShown_type hmain hsub, Except.map,
      Shown.parameter?_type hmain hsub, Option.map_none]
  named := by
    intro e he
    have hname : (Field.dispositionShown
        (Glyphs.ofChars "form-data; name=\"payload\"".toList)).map (Shown.parameter? "name") =
          .ok (some "payload".toList) := ok_of_toOption (by decide +kernel)
    rw [Entity.name?, he, partFields_typedPart]
    exact hname
  plain := by
    rw [partFields_typedPart]
    rfl

/-- **What becomes of a payload**, type by type. It is what was sent unless it is of a type in
parts, which puts a line end to it, or a message, of which nothing is left if the reply is read at
all. -/
theorem decode_typedPayload {contentType boundary : String} (h : Announces contentType boundary)
    (header : Header) (hfree : ¬ Text.utf8 ("--" ++ boundary) <:+: payload)
    (hmain : IsTypeName main.toList) (hsub : IsTypeName sub.toList) :
    let kind := main.toList.map Char.toLower
    let decoded := decode (some contentType)
      (frame boundary [headerPart header, typedPart main sub payload])
    (kind ≠ "multipart".toList → kind ≠ "message".toList →
      decoded = .ok ⟨header, .octets payload⟩) ∧
    (kind = "multipart".toList → decoded = .ok ⟨header, .octets (payload ++ [0x0D, 0x0A])⟩) ∧
    (kind = "message".toList → decoded = .ok ⟨header, .octets []⟩ ∨
      (∃ fault, decoded = .error (.headerField fault)) ∧ 0x2A ∈ payload) ∧
    (decoded = .ok ⟨header, .octets payload⟩ ↔
      kind ≠ "multipart".toList ∧ (kind = "message".toList → payload = [])) := by
  intro kind decoded
  have hdeclares := declares_typedPart hmain hsub payload
  have htext : kind ≠ "multipart".toList → kind ≠ "message".toList →
      decoded = .ok ⟨header, .octets payload⟩ := fun hmultipart hmessage =>
    hdeclares.decode_of_text h header hfree (decide_eq_false hmessage) (decide_eq_false hmultipart)
  have hparts : kind = "multipart".toList →
      decoded = .ok ⟨header, .octets (payload ++ [0x0D, 0x0A])⟩ := fun hmultipart =>
    hdeclares.decode_of_multipart h header hfree (decide_eq_true hmultipart)
  have hmessage : kind = "message".toList → decoded = .ok ⟨header, .octets []⟩ ∨
      (∃ fault, decoded = .error (.headerField fault)) ∧ 0x2A ∈ payload := fun hmessage =>
    hdeclares.decode_of_message h header hfree (decide_eq_true hmessage)
  refine ⟨htext, hparts, hmessage, fun hread => ⟨fun hmultipart => ?_, fun hkind => ?_⟩, ?_⟩
  · have hsame := Except.ok.inj (hread.symm.trans (hparts hmultipart))
    have hlonger : payload = payload ++ [0x0D, 0x0A] :=
      Received.octets.inj (Response.mk.inj hsame).2
    exact List.cons_ne_nil _ _ (List.self_eq_append_right.1 hlonger)
  · rcases hmessage hkind with hlost | ⟨⟨fault, hrefused⟩, -⟩
    · have hsame := Except.ok.inj (hread.symm.trans hlost)
      exact Received.octets.inj (Response.mk.inj hsame).2
    · cases hread.symm.trans hrefused
  · rintro ⟨hmultipart, hempty⟩
    by_cases hkind : kind = "message".toList
    · rcases hmessage hkind with hlost | ⟨-, hstar⟩
      · have hsame : decoded = .ok ⟨header, .octets []⟩ := hlost
        rw [hsame, hempty hkind]
      · rw [hempty hkind] at hstar
        cases hstar
    · exact htext hmultipart hkind

/-- A table as payload, with a line end at its end. -/
theorem decode_typedPayload_csv :
    decode (some (formType "0123456789abcdef0123456789ABCDEF"))
      (frame "0123456789abcdef0123456789ABCDEF"
        [headerPart (.ofPairs [("@type", "x")]), typedPart "Text" "csv" [0x61, 0x0D, 0x0A]]) =
      .ok ⟨.ofPairs [("@type", "x")], .octets [0x61, 0x0D, 0x0A]⟩ :=
  have hannounces : Announces (formType "0123456789abcdef0123456789ABCDEF")
      "0123456789abcdef0123456789ABCDEF" :=
    announces_formType (forall_mem_of_all (by decide +kernel)) (by decide)
  (decode_typedPayload hannounces _ (by decide +kernel) (by decide) (by decide)).1 (by decide)
    (by decide)

/-- Nothing is left of a message. -/
theorem decode_message_lost :
    IsTypeName "message".toList ∧ IsTypeName "rfc822".toList ∧
    ¬ Text.utf8 ("--" ++ "0123456789abcdef0123456789abcdef") <:+: [0x61] ∧
    decode (some (formType "0123456789abcdef0123456789abcdef"))
      (frame "0123456789abcdef0123456789abcdef"
        [headerPart (.ofPairs [("@type", "x")]), typedPart "message" "rfc822" [0x61]]) =
      .ok ⟨.ofPairs [("@type", "x")], .octets []⟩ :=
  have hmain : IsTypeName "message".toList := by decide
  have hsub : IsTypeName "rfc822".toList := by decide
  have hfree : ¬ Text.utf8 ("--" ++ "0123456789abcdef0123456789abcdef") <:+: [0x61] := by
    decide +kernel
  have hannounces : Announces (formType "0123456789abcdef0123456789abcdef")
      "0123456789abcdef0123456789abcdef" :=
    announces_formType (forall_mem_of_all (by decide +kernel)) (by decide)
  have hlost := (declares_typedPart hmain hsub [0x61]).decode_of_message hannounces
    (.ofPairs [("@type", "x")]) hfree (by decide)
  ⟨hmain, hsub, hfree, hlost.resolve_right fun ⟨_, hstar⟩ => absurd hstar (by decide)⟩

end Multipart

end Dataspace
