import Dataspace.Proofs.JsonFragment
import Dataspace.Proofs.MultipartForm

/-!
# Forms without an end

The reader of forms does not ask for the final delimiter: what stands behind the last delimiter is a
part as well, as far as it goes. This module says what is read of a form that breaks off behind a
delimiter, whatever parts stand in front.

* **`readParts_form`** — a form without a delimiter has no parts, every other one has its groups of
  lines.
* **`LastPart.readParts_append`** — the parts in front are read as they were written, and the last
  one is put to them.
* **`LastPart.decode_append`** — the message that is read.
* **`lastPart_of_textPart?`**, **`Leaf.lastPart`** — what the last part is, within its header lines
  and behind them.
* **`headerRefused_fragment`**, **`headerRefused_append`** — a header that breaks off, and one with
  something else behind it.
-/

namespace Dataspace.Multipart

open Mime
open Text (Octets)
open Text.Utf8 (encode)

variable {boundary : String} {s : Octets}

/-! ## Groups of lines as parts -/

/-- **The parts of a form** are its groups of lines, each read as a text unless it says
otherwise. -/
theorem readParts_form (hb : IsTokenText boundary.toList) (hboundary : boundary ≠ "") (s : Octets) :
    ∃ fuel, readParts (formType boundary) s =
      match Entity.groups boundary.toList (Line.ofOctets s) with
      | .inl _ => .error (.transport .malformed none)
      | .inr groups =>
        match groups.mapM (Entity.read (fuel + 1) .plainText) with
        | .error fault => .error (.headerField fault)
        | .ok entities => (partsByName (entities.map Entity.withoutEnd)).mapError .headerField := by
  have hdigits : boundary.toList ≠ [] := fun h => hboundary (String.toList_eq_nil_iff.1 h)
  have htype : Entity.typeOf (Entity.fieldsOf (Entity.typeHeader (formType boundary).toList))
      .plainText = .ok Mime.formType := by
    rw [toList_formType, Entity.fieldsOf_typeHeader]
    exact Entity.typeOf_form hb hdigits .plainText
  -- a form is no digest, whose parts would be messages
  exact readParts_groups (announces_formType hb hboundary).entity htype s

/-! ## The last part -/

/-- What stands behind the last delimiter, as it is read: the lines, the name and the content of a
part. -/
structure LastPart (boundary : String) (s : Octets) (name : Option (List Char)) (content : Octets) :
    Prop where
  exists_lines : ∃ line lines, Line.ofOctets s = line :: lines ∧
    Line.delimiter? boundary.toList line = some .between ∧
    (∀ l ∈ lines, Line.delimiter? boundary.toList l = none) ∧
    ∀ fuel, ∃ e, Entity.read (fuel + 1) .plainText lines = .ok e ∧
      e.withoutEnd.name? = .ok name ∧ e.withoutEnd.payload = content

/-- A part among those in front of it. -/
def putPart (parts : Fields Octets) (name : Option (List Char)) (content : Octets) :
    Fields Octets :=
  match name with
  | some (c :: cs) => parts.put (String.ofList (c :: cs)) content
  | _ => parts

variable {name : Option (List Char)} {content : Octets}

theorem get?_putPart (parts : Fields Octets) {n : String} (hn : n ≠ "") :
    (putPart parts name content).get? n =
      if name = some n.toList then some content else parts.get? n := by
  match name with
  | none => rfl
  | some [] =>
    have hne : ¬ some [] = some n.toList := fun h =>
      hn (String.toList_eq_nil_iff.1 (Option.some.inj h).symm)
    exact (if_neg hne).symm
  | some (c :: cs) =>
    rw [putPart]
    by_cases h : some (c :: cs) = some n.toList
    · have hname : String.ofList (c :: cs) = n := by
        rw [Option.some.inj h, String.ofList_toList]
      rw [if_pos h, hname, Fields.get?_put_self]
    · have hname : n ≠ String.ofList (c :: cs) := fun heq => h (by
        rw [heq, String.toList_ofList])
      rw [if_neg h, Fields.get?_put_of_ne _ hname]

theorem partsByName_append {front : List Entity} {e : Entity} {parts : Fields Octets}
    (hfront : partsByName front = .ok parts) (hname : e.name? = .ok name) :
    partsByName (front ++ [e]) = .ok (putPart parts name e.payload) := by
  rw [partsByName] at hfront
  rw [partsByName, List.foldlM_append, hfront]
  simp only [bind, Except.bind, List.foldlM_cons, List.foldlM_nil, hname]
  cases name with
  | none => rfl
  | some name =>
    cases name with
    | nil => rfl
    | cons c cs => rfl

/-- **A form that breaks off** behind a delimiter has the parts in front and the one with which it
breaks off. -/
theorem LastPart.readParts_append (h : LastPart boundary s name content)
    (hb : IsTokenText boundary.toList) (hboundary : boundary ≠ "")
    (typed : List (FilePart × MediaType)) (hleaf : ∀ p ∈ typed, Leaf p.1 p.2)
    (hfree : ∀ p ∈ typed, ∀ l ∈ Line.ofOctets (p.1.content ++ [0x0D, 0x0A]),
      Line.delimiter? boundary.toList l = none) :
    readParts (formType boundary) ((typed.map Prod.fst).flatMap (framePart boundary) ++ s) =
      .ok (putPart (.ofPairs (typed.map fun p => (p.1.name, p.1.content))) name content) := by
  obtain ⟨line, lines, hlines, hline, hnone, hread⟩ := h.exists_lines
  have hgroups : Entity.groups boundary.toList
      (Line.ofOctets ((typed.map Prod.fst).flatMap (framePart boundary) ++ s)) =
        .inr ((typed.map fun p => partLines p.1) ++ [lines]) := by
    have hwritable : ∀ part ∈ typed.map Prod.fst, ∀ f ∈ partHeader part,
        Field.Writable f.1 f.2 := by
      intro part hpart
      obtain ⟨p, hp, rfl⟩ := List.mem_map.1 hpart
      exact (hleaf p hp).writable
    have hparts : (typed.map Prod.fst).map partLines = typed.map fun p => partLines p.1 :=
      List.map_map
    rw [ofOctets_parts hb hwritable, hlines, hparts]
    refine Entity.groups_openEnded (Line.delimiter?_mark_append hb.isPrintableText.all_ascii _)
      hline ?_ hnone
    intro g hg
    obtain ⟨p, hp, rfl⟩ := List.mem_map.1 hg
    exact ⟨List.cons_ne_nil _ _, free_lines (hfree p hp)⟩
  obtain ⟨fuel, hparts⟩ := readParts_form hb hboundary
    ((typed.map Prod.fst).flatMap (framePart boundary) ++ s)
  obtain ⟨es, hreads, hes⟩ := mapM_read fuel typed hleaf
  obtain ⟨e, hlast, hname, hcontent⟩ := hread fuel
  have hmap : ((typed.map fun p => partLines p.1) ++ [lines]).mapM
      (Entity.read (fuel + 1) .plainText) = .ok (es ++ [e]) := by
    rw [List.mapM_append, hreads, List.mapM_cons, hlast]
    rfl
  rw [hparts, hgroups]
  simp only [hmap, List.map_append, List.map_singleton, hes,
    partsByName_append (partsByName_entities typed hleaf) hname, hcontent]
  rfl

/-- **What a form that breaks off is read as.** Its last part counts for a part of the same name in
front. -/
theorem LastPart.decode_append (h : LastPart boundary s name content)
    (hb : IsTokenText boundary.toList) (hboundary : boundary ≠ "")
    (typed : List (FilePart × MediaType)) (hleaf : ∀ p ∈ typed, Leaf p.1 p.2)
    (hfree : ∀ p ∈ typed, ∀ l ∈ Line.ofOctets (p.1.content ++ [0x0D, 0x0A]),
      Line.delimiter? boundary.toList l = none)
    {parts : Fields Octets}
    (hparts : .ofPairs (typed.map fun p => (p.1.name, p.1.content)) = parts) :
    decode (some (formType boundary)) ((typed.map Prod.fst).flatMap (framePart boundary) ++ s) =
      match if name = some "header".toList then some content else parts.get? "header" with
      | none => .error (.transport .noHeaderPart none)
      | some header => (readHeader header).map fun header => ⟨header, .octets ((if
          name = some "payload".toList then some content else parts.get? "payload").getD [])⟩ := by
  have hread := h.readParts_append hb hboundary typed hleaf hfree
  rw [hparts] at hread
  have hdecode : decode (some (formType boundary))
      ((typed.map Prod.fst).flatMap (framePart boundary) ++ s) = _ :=
    decode_of_isMultipart (isMultipart_formType boundary)
  rw [hread] at hdecode
  rw [← get?_putPart parts (by decide), ← get?_putPart parts (by decide)]
  exact hdecode

/-! ## How far the last part goes -/

/-- A delimiter with its line end as far as it goes. -/
theorem delimiter?_mark_of_front (hb : IsPrintableText boundary.toList) {e : Octets}
    (he : e <+: [0x0D, 0x0A]) :
    Line.delimiter? boundary.toList (Line.mark boundary.toList ++ e) = some .between := by
  rcases Line.prefix_lineEnd he with rfl | rfl | rfl
  all_goals exact Line.delimiter?_mark_append hb.all_ascii _

/-- Nothing stands behind a delimiter that breaks off within its line end. -/
theorem lastPart_delimiter (hb : IsPrintableText boundary.toList) {e : Octets}
    (he : e <+: [0x0D, 0x0A]) : LastPart boundary (Line.mark boundary.toList ++ e) none [] where
  exists_lines := by
    have hlines := Line.ofOctets_singleton (isLineEnd_mark hb) he
      (List.append_ne_nil_of_left_ne_nil (List.cons_ne_nil _ _) _)
    exact ⟨_, [], hlines, delimiter?_mark_of_front hb he, fun l hl => (nomatch hl),
      fun fuel => ⟨_, rfl, rfl, rfl⟩⟩

/-- Name and content of a part, if it is a text. -/
def textPart? (lines : List Octets) : Option (Option (List Char) × Octets) :=
  let (header, body) := Field.splitHeader lines
  let fields := Field.ofHeader header
  match Entity.typeOf fields .plainText with
  | .error _ => none
  | .ok type =>
    if type.isMessage || type.isMultipart then none
    else
      let e := (Entity.mk fields type (.text body.flatten)).withoutEnd
      match e.name? with
      | .error _ => none
      | .ok name => some (name, e.payload)

/-- A text is read as such. -/
theorem read_of_textPart? {lines : List Octets} (h : textPart? lines = some (name, content))
    (fuel : Nat) : ∃ e, Entity.read (fuel + 1) .plainText lines = .ok e ∧
      e.withoutEnd.name? = .ok name ∧ e.withoutEnd.payload = content := by
  rw [textPart?] at h
  rw [Entity.read]
  simp only at h ⊢
  cases htype : Entity.typeOf (Field.ofHeader (Field.splitHeader lines).1) .plainText with
  | error fault => rw [htype] at h; cases h
  | ok type =>
    rw [htype] at h
    simp only at h
    cases hmessage : type.isMessage with
    | true => rw [hmessage] at h; cases h
    | false =>
      cases hmultipart : type.isMultipart with
      | true => rw [hmessage, hmultipart] at h; cases h
      | false =>
        -- a report on delivery would count as a message
        have hstatus : type ≠ .deliveryStatus := by
          rintro rfl
          cases hmessage
        simp only [hmessage, hmultipart, Bool.or_self, Bool.false_eq_true, if_false] at h
        simp only [bind, Except.bind, hstatus, hmessage, hmultipart, if_false, Bool.false_eq_true]
        refine ⟨_, rfl, ?_⟩
        split at h
        · cases h
        · rename_i hname
          cases h
          exact ⟨hname, rfl⟩

/-- The last part breaks off within its header lines, or anywhere where it is a text. -/
theorem lastPart_of_textPart? (hb : IsPrintableText boundary.toList)
    (h : textPart? (Line.ofOctets s) = some (name, content))
    (hfree : ∀ l ∈ Line.ofOctets s, Line.delimiter? boundary.toList l = none) :
    LastPart boundary (Line.mark boundary.toList ++ 0x0D :: 0x0A :: s) name content where
  exists_lines := ⟨_, _, Line.ofOctets_line (isLineEnd_mark hb) s,
    delimiter?_mark_of_front hb (List.prefix_refl _), hfree, read_of_textPart? h⟩

/-- The last part breaks off behind its header lines. -/
theorem Leaf.lastPart {part : FilePart} {type : MediaType} (h : Leaf part type)
    (hb : IsPrintableText boundary.toList)
    (hfree : ∀ l ∈ Line.ofOctets s, Line.delimiter? boundary.toList l = none) :
    LastPart boundary (Line.mark boundary.toList ++ 0x0D :: 0x0A :: (fieldLines part ++ s))
      (some part.name.toList) (Line.withoutEnd s) where
  exists_lines := by
    refine ⟨_, _, Line.ofOctets_line (isLineEnd_mark hb) _,
      delimiter?_mark_of_front hb (List.prefix_refl _), ?_, fun fuel => ?_⟩
    all_goals
      rw [fieldLines_eq, List.append_assoc, List.cons_append, List.cons_append, List.nil_append,
        ofOctets_lines h.writable]
    · exact free_lines hfree
    · obtain ⟨e, hread, he⟩ := h.read_append fuel s
      refine ⟨e, hread _, ?_, ?_⟩
      · rw [he]
        exact h.named
      · have hplain : Field.find? (partFields part) "content-transfer-encoding" = none := h.plain
        rw [he, Entity.payload]
        simp only [Entity.content, Entity.fields, hplain]

/-! ## Headers that break off -/

/-- Octets of an ASCII text as far as they go are those of the text as far as it goes. -/
theorem exists_prefix_of_encode {cs : List Char} (hascii : ∀ c ∈ cs, c.toNat < 0x80) {j : Octets}
    (h : j <+: encode cs) : ∃ t, t <+: cs ∧ j = encode t := by
  refine ⟨cs.take j.length, List.take_prefix _ _, ?_⟩
  rw [Text.Utf8.encode_ascii fun c hc => hascii c (List.mem_of_mem_take hc), List.map_take,
    ← Text.Utf8.encode_ascii hascii]
  exact List.prefix_iff_eq_take.1 h

/-- The reader of headers refuses a content. -/
def HeaderRefused (content : Octets) : Prop :=
  ∃ fault, readHeader content = .error (.transport fault none)

/-- **A header part that is no JSON** is refused, unless for a number that is too long or for
containers that stand too deep. -/
theorem headerRefused_of_refused {cs : List Char}
    (hascii : ∀ c ∈ cs, 0 < c.toNat ∧ c.toNat < 0x80) (hbrace : cs.head?.all (· = '{') = true)
    (h : Json.Refused (Json.read .header cs)) : HeaderRefused (encode cs) := by
  obtain ⟨f, hread, hsyntax⟩ := h
  rw [HeaderRefused, readHeader, readHeaderValue, decodeJson_encode hascii hbrace]
  simp only [hread]
  cases hf : f.flaw with
  | digits | depth => rw [hf] at hsyntax; exact hsyntax.elim
  | _ => exact ⟨_, rfl⟩

section Header

variable (header : Header)

theorem refusesFragments_headerJson :
    Json.RefusesFragments .header .plain Json.Dialect.header.depth (headerJson header) := by
  refine Json.refusesFragments_obj Json.Style.faithful_plain
    (show Json.deeper (some 994) = some (some 993) from rfl) fun p hp => ?_
  obtain ⟨⟨name, value⟩, -, rfl⟩ := List.mem_map.1 hp
  exact ⟨value, rfl⟩

/-- **A header that breaks off.** -/
theorem headerRefused_fragment {j : Octets}
    (h : j <+: Text.utf8 ((headerJson header).write .plain))
    (hne : j ≠ Text.utf8 ((headerJson header).write .plain)) : HeaderRefused j := by
  have hascii := ascii_headerJson header
  rw [Text.utf8, Json.write, String.toList_ofList] at h hne
  obtain ⟨t, ht, rfl⟩ := exists_prefix_of_encode (fun c hc => (hascii c hc).2) h
  have hbrace : t.head?.all (· = '{') = true := by
    obtain ⟨r, hr⟩ := exists_brace_headerJson header
    cases t with
    | nil => rfl
    | cons c t => exact decide_eq_true (List.cons_prefix_cons.1 (hr ▸ ht)).1
  exact headerRefused_of_refused (fun c hc => hascii c (ht.subset hc)) hbrace
    (Json.refused_read (readable_headerJson header) (refusesFragments_headerJson header) ht
      fun heq => hne (by rw [heq]))

/-- **A header with a piece of the delimiter behind it.** -/
theorem headerRefused_append {rest : List Char}
    (hascii : ∀ c ∈ rest, 0 < c.toNat ∧ c.toNat < 0x80) (hrest : Json.skipBlanks rest ≠ []) :
    HeaderRefused (Text.utf8 ((headerJson header).write .plain) ++ encode rest) := by
  rw [Text.utf8, Json.write, String.toList_ofList, ← Text.Utf8.encode_append]
  refine headerRefused_of_refused (fun c hc => ?_) ?_
    (Json.refused_read_append Json.Style.faithful_plain (readable_headerJson header) hrest)
  · exact (List.mem_append.1 hc).elim (ascii_headerJson header c) (hascii c)
  · obtain ⟨r, hr⟩ := exists_brace_headerJson header
    rw [hr]
    rfl

end Header

end Dataspace.Multipart
