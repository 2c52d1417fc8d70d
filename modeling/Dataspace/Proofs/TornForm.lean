import Dataspace.Proofs.OpenForm

/-!
# Replies that break off

A reply is framed as a form of two parts, a header and a payload. If the connection breaks before
the final delimiter has come, the reader is left with the front of that form. What it makes of it
depends on the place:

* up to the end of the header part, and within the mark of the delimiter after it, the reply is
  refused, since there is no header or its JSON breaks off;
* from there on the reply is taken for a whole one. Its header is the one that was sent. Its payload
  is what has come of it, which is less than was sent, or more if the final delimiter has broken
  off.

`Torn` lists the places with what is read there. **`exists_torn`** says that the list is complete,
**`Torn.taken`** that it is right, and **`decode_torn`** puts the two together.
-/

namespace Dataspace.Multipart

open Mime
open Text (Octets)
open Text.Utf8 (encode)

/-! ## Places -/

/-- The name of the second header field, if a reply breaks off within it. A line without a colon is
no header line, so the reader takes it for the content. -/
def fieldRemnant (s : Octets) : Octets :=
  match Line.ofOctets s with
  | [_, line] => if line.contains 0x3A then [] else line
  | _ => []

/-- A delimiter with its line end. -/
def delimiterLine (boundary : String) : Octets :=
  Text.utf8 ("--" ++ boundary ++ "\r\n")

/-- A part up to its content. -/
def opening (boundary : String) (part : FilePart) : Octets :=
  delimiterLine boundary ++ fieldLines part

/-- **The front of a form** of two parts without its final delimiter, and the payload that is read
in it, if the reply is not refused. -/
inductive Torn (boundary : String) (first second : FilePart) : Octets → Option Octets → Prop where
  | inFirst {s : Octets} (h : s <+: opening boundary first ++ first.content)
      (hne : s ≠ opening boundary first ++ first.content) : Torn boundary first second s none
  | behindFirst {e : Octets} (h : e <+: Text.utf8 "\r\n") :
      Torn boundary first second (opening boundary first ++ first.content ++ e) (some [])
  | inMark {d : Octets} (h : d <+: Text.utf8 ("--" ++ boundary)) (hne : d ≠ [])
      (hne' : d ≠ Text.utf8 ("--" ++ boundary)) :
      Torn boundary first second (framePart boundary first ++ d) none
  | behindMark {e : Octets} (h : e <+: Text.utf8 "\r\n") (hne : e ≠ Text.utf8 "\r\n") :
      Torn boundary first second
        (framePart boundary first ++ (Text.utf8 ("--" ++ boundary) ++ e)) (some [])
  | inFields {z : Octets} (h : z <+: fieldLines second) (hne : z ≠ fieldLines second) :
      Torn boundary first second (framePart boundary first ++ (delimiterLine boundary ++ z))
        (some (fieldRemnant z))
  | inSecond {q : Octets} (h : q <+: second.content) :
      Torn boundary first second (framePart boundary first ++ (opening boundary second ++ q))
        (some (Line.withoutEnd q))
  | behindSecond {e : Octets} (h : e <+: Text.utf8 "\r\n") (hne : e ≠ []) :
      Torn boundary first second
        (framePart boundary first ++ (opening boundary second ++ (second.content ++ e)))
        (some second.content)
  | inFinal {d : Octets} (h : d <+: Text.utf8 ("--" ++ boundary ++ "-")) (hne : d ≠ [])
      (hne' : d ≠ Text.utf8 ("--" ++ boundary)) :
      Torn boundary first second
        (framePart boundary first ++ framePart boundary second ++ d)
        (some (second.content ++ Text.utf8 "\r\n" ++ d))
  | beforeFinal :
      Torn boundary first second
        (framePart boundary first ++ framePart boundary second ++ Text.utf8 ("--" ++ boundary))
        (some second.content)

variable {boundary : String} {first second : FilePart} {s : Octets}

theorem delimiterLine_eq (boundary : String) :
    delimiterLine boundary = Line.mark boundary.toList ++ [0x0D, 0x0A] := by
  rw [delimiterLine, utf8_append, utf8_mark, utf8_lineEnd]

theorem utf8_mark_hyphen (boundary : String) :
    Text.utf8 ("--" ++ boundary ++ "-") = Line.mark boundary.toList ++ [0x2D] := by
  rw [utf8_append, utf8_mark]
  rfl

theorem mark_front (boundary : String) :
    Text.utf8 ("--" ++ boundary) <+: Text.utf8 ("--" ++ boundary ++ "-") := by
  rw [utf8_mark_hyphen, utf8_mark]
  exact List.prefix_append _ _

theorem framePart_eq_pieces (boundary : String) (part : FilePart) :
    framePart boundary part = Text.utf8 ("--" ++ boundary) ++ (Text.utf8 "\r\n" ++
      (fieldLines part ++ (part.content ++ Text.utf8 "\r\n"))) := by
  rw [framePart_eq, utf8_mark, utf8_lineEnd, List.cons_append, List.cons_append, List.nil_append]

theorem opening_append (boundary : String) (part : FilePart) (r : Octets) :
    opening boundary part ++ r = Text.utf8 ("--" ++ boundary) ++ (Text.utf8 "\r\n" ++
      (fieldLines part ++ r)) := by
  rw [opening, delimiterLine, utf8_append ("--" ++ boundary)]
  simp only [List.append_assoc]

theorem framePart_eq_opening (boundary : String) (part : FilePart) :
    framePart boundary part = opening boundary part ++ part.content ++ Text.utf8 "\r\n" := by
  rw [List.append_assoc, opening_append, framePart_eq_pieces]

/-- The second part and the line end behind it, as far as they go. -/
theorem exists_torn_second {t : Octets} (h : t <+: framePart boundary second) :
    ∃ taken, Torn boundary first second (framePart boundary first ++ t) taken := by
  rw [framePart_eq_pieces] at h
  rcases prefix_append_cases h with ⟨hmark, hne⟩ | ⟨e, ht, hrest⟩
  · cases t with
    | nil =>
      rw [List.append_nil, framePart_eq_opening]
      exact ⟨_, .behindFirst (List.prefix_refl _)⟩
    | cons b t => exact ⟨_, .inMark hmark (List.cons_ne_nil _ _) hne⟩
  rw [ht]
  rcases prefix_append_cases hrest with ⟨hend, hne⟩ | ⟨z, he, hfields⟩
  · exact ⟨_, .behindMark hend hne⟩
  rw [he]
  rcases prefix_append_cases hfields with ⟨hcut, hne⟩ | ⟨q, hz, hcontent⟩
  · rw [← List.append_assoc (Text.utf8 _), ← utf8_append]
    exact ⟨_, .inFields hcut hne⟩
  rw [hz, ← opening_append]
  rcases prefix_append_cases hcontent with ⟨hcut, -⟩ | ⟨e, hq, hend⟩
  · exact ⟨_, .inSecond hcut⟩
  rw [hq]
  by_cases hnil : e = []
  · rw [hnil, List.append_nil]
    exact ⟨_, .inSecond (List.prefix_refl _)⟩
  · exact ⟨_, .behindSecond hend hnil⟩

/-- **The list of places is complete.** -/
theorem exists_torn (h : s <+: framePart boundary first ++
    (framePart boundary second ++ Text.utf8 ("--" ++ boundary ++ "-"))) :
    ∃ taken, Torn boundary first second s taken := by
  rcases prefix_append_cases h with ⟨hfirst, hne⟩ | ⟨t, hs, hrest⟩
  · -- within the first part or the line end behind it
    rw [framePart_eq_opening] at hfirst
    rcases prefix_append_cases hfirst with ⟨hinside, hbroken⟩ | ⟨e, hs, he⟩
    · exact ⟨_, .inFirst hinside hbroken⟩
    · rw [hs]
      exact ⟨_, .behindFirst he⟩
  rw [hs]
  rcases prefix_append_cases hrest with ⟨hsecond, hne⟩ | ⟨d, ht, hd⟩
  · exact exists_torn_second hsecond
  rw [ht, ← List.append_assoc]
  by_cases hnil : d = []
  · rw [hnil, List.append_nil]
    exact exists_torn_second (List.prefix_refl _)
  by_cases hmark : d = Text.utf8 ("--" ++ boundary)
  · rw [hmark]
    exact ⟨_, .beforeFinal⟩
  · exact ⟨_, .inFinal hd hnil hmark⟩

/-! ## What is read -/

def payloadPart (payload : Payload) : FilePart :=
  ⟨"payload", payload.wire, "application/octet-stream"⟩

/-- A reply in this form is refused, or taken for a message with this header and a payload. -/
def TakenFor (boundary : String) (header : Header) (s : Octets) : Option Octets → Prop
  | none => ∃ fault, decode (some (formType boundary)) s = .error (.transport fault none)
  | some content => decode (some (formType boundary)) s = .ok ⟨header, .octets content⟩

/-! ## Header lines that break off -/

/-- No line begins with a hyphen. -/
def HyphenFree (z : Octets) : Prop :=
  ∀ l ∈ Line.ofOctets z, l.head? ≠ some 0x2D

instance (z : Octets) : Decidable (HyphenFree z) :=
  inferInstanceAs (Decidable (∀ l ∈ _, _))

/-- So no line is a delimiter. -/
theorem HyphenFree.free {z : Octets} (h : HyphenFree z) {boundary : List Char} :
    ∀ l ∈ Line.ofOctets z, Line.delimiter? boundary l = none := by
  intro l hl
  cases l with
  | nil => exact Line.delimiter?_eq_none fun hmark => nomatch List.prefix_nil.1 hmark
  | cons b l => exact Line.delimiter?_eq_none_of_head rfl fun hb => h _ hl (congrArg some hb)

/-- Whether the reader of headers refuses a content. -/
def isHeaderRefused (content : Octets) : Bool :=
  match readHeader content with
  | .error (.transport _ none) => true
  | _ => false

theorem headerRefused_of_isHeaderRefused {content : Octets} (h : isHeaderRefused content = true) :
    HeaderRefused content := by
  rw [isHeaderRefused] at h
  split at h
  · rename_i fault hread
    exact ⟨fault, hread⟩
  · cases h

/-- A header part that breaks off within its header lines has another name, or its content is no
header. -/
theorem cut_header : ∀ z ∈ (fieldLines ⟨"header", [], "application/ld+json"⟩).inits,
    HyphenFree z ∧ (textPart? (Line.ofOctets z)).any fun (name, content) =>
      name ≠ some "header".toList || isHeaderRefused content :=
  forall_mem_of_all (by decide +kernel)

/-- A payload part that breaks off within its header lines has another name, or holds no more than
what has come of the name of a field. -/
theorem cut_payload : ∀ z ∈ (fieldLines ⟨"payload", [], "application/octet-stream"⟩).inits,
    HyphenFree z ∧ (textPart? (Line.ofOctets z)).any fun (name, content) =>
      name ≠ some "header".toList &&
        (if name = some "payload".toList then content else []) = fieldRemnant z :=
  forall_mem_of_all (by decide +kernel)

section Taken

variable {header : Header} {payload : Payload} {name : Option (List Char)} {content : Octets}
  (hb : IsTokenText boundary.toList) (hboundary : boundary ≠ "")
include hb hboundary

/-- **The header part breaks off.** -/
theorem LastPart.refused (h : LastPart boundary s name content)
    (hrefused : name = some "header".toList → HeaderRefused content) :
    TakenFor boundary header s none := by
  have hdecode := h.decode_append hb hboundary [] (fun p hp => nomatch hp)
    (fun p hp => nomatch hp) rfl
  rw [List.map_nil, List.flatMap_nil, List.nil_append] at hdecode
  rw [TakenFor, hdecode]
  by_cases hheader : name = some "header".toList
  · obtain ⟨fault, hfault⟩ := hrefused hheader
    rw [if_pos hheader]
    simp only [hfault]
    exact ⟨fault, rfl⟩
  · rw [if_neg hheader]
    exact ⟨_, rfl⟩

/-- The header part is there, and no payload. -/
theorem LastPart.taken_header
    (h : LastPart boundary s (some "header".toList) (headerPart header).content) :
    TakenFor boundary header s (some []) := by
  have hdecode := h.decode_append hb hboundary [] (fun p hp => nomatch hp)
    (fun p hp => nomatch hp) rfl
  rw [List.map_nil, List.flatMap_nil, List.nil_append, if_pos rfl] at hdecode
  simp only [headerPart, readHeader_files] at hdecode
  exact hdecode

/-- **The payload part breaks off.** What it holds by then is taken for the payload. -/
theorem LastPart.taken_payload (h : LastPart boundary s name content)
    (hname : name ≠ some "header".toList) :
    TakenFor boundary header (framePart boundary (headerPart header) ++ s)
      (some (if name = some "payload".toList then content else [])) := by
  have hdecode := h.decode_append hb hboundary [(headerPart header, headerType)]
    (List.forall_mem_singleton.2 (leaf_header _))
    (List.forall_mem_singleton.2 (free_header header boundary.toList)) rfl
  rw [List.map_singleton, List.flatMap_singleton, if_neg hname] at hdecode
  rw [TakenFor, hdecode]
  show (readHeader (headerPart header).content).map _ = _
  rw [headerPart, readHeader_files]
  by_cases hpayload : name = some "payload".toList
  · simp only [if_pos hpayload]
    rfl
  · simp only [if_neg hpayload]
    rfl

/-- Both parts are there, and nothing behind them that counts. -/
theorem LastPart.taken_both (h : LastPart boundary s none content)
    (hfree : ¬ Text.utf8 ("--" ++ boundary) <:+: payload.wire) :
    TakenFor boundary header
      (framePart boundary (headerPart header) ++ framePart boundary (payloadPart payload) ++ s)
      (some payload.wire) := by
  have hdecode := h.decode_append hb hboundary (typedFiles header payload)
    (leaf_typedFiles header payload) (free_typedFiles header payload hfree hb) rfl
  have hfront : ((typedFiles header payload).map Prod.fst).flatMap (framePart boundary) =
      framePart boundary (headerPart header) ++ framePart boundary (payloadPart payload) :=
    congrArg _ (List.append_nil _)
  rw [hfront, if_neg (by decide)] at hdecode
  rw [TakenFor, hdecode]
  show (readHeader (headerPart header).content).map _ = _
  rw [headerPart, readHeader_files]
  rfl

omit hboundary in
/-- Behind its header lines, a part is the last one with as much of its content as has come. -/
theorem Leaf.lastPart_opening {part : FilePart} {type : MediaType} (h : Leaf part type)
    {j : Octets} (hfree : ∀ l ∈ Line.ofOctets j, Line.delimiter? boundary.toList l = none)
    (hj : Line.withoutEnd j = content) :
    LastPart boundary (opening boundary part ++ j) (some part.name.toList) content := by
  rw [opening, delimiterLine_eq, ← hj]
  simp only [List.append_assoc, List.cons_append, List.nil_append]
  exact h.lastPart hb hfree

/-! ### Within the mark of a delimiter -/

omit hboundary in
/-- A mark that breaks off is no delimiter, and neither is one with half an end behind it. -/
theorem delimiter?_of_front {d : Octets} (h : d <+: Text.utf8 ("--" ++ boundary ++ "-"))
    (hne : d ≠ Text.utf8 ("--" ++ boundary)) : Line.delimiter? boundary.toList d = none := by
  rw [utf8_mark_hyphen] at h
  rw [utf8_mark] at hne
  rcases prefix_append_cases h with ⟨hfront, -⟩ | ⟨r, rfl, hr⟩
  · exact Line.delimiter?_eq_none fun hmark => hne (hfront.eq_of_length_le hmark.length_le)
  · cases r with
    | nil => exact absurd (List.append_nil _) hne
    | cons x r =>
      obtain ⟨rfl, hnil⟩ := List.cons_prefix_cons.1 hr
      rw [List.prefix_nil.1 hnil]
      exact Line.delimiter?_mark_append hb.isPrintableText.all_ascii _

omit hboundary in
theorem isLineEnd_of_front {d : Octets} (h : d <+: Text.utf8 ("--" ++ boundary ++ "-")) :
    ∀ b ∈ d, isLineEnd b = false := by
  have hfinal : Text.utf8 ("--" ++ boundary ++ "-") <+:
      Line.mark boundary.toList ++ [0x2D, 0x2D] := by
    rw [utf8_mark_hyphen]
    exact ⟨[0x2D], List.append_assoc _ _ _⟩
  exact fun b hmem => isLineEnd_final hb b ((h.trans hfinal).subset hmem)

omit hboundary in
theorem free_of_front {d : Octets} (h : d <+: Text.utf8 ("--" ++ boundary ++ "-"))
    (hne : d ≠ Text.utf8 ("--" ++ boundary)) :
    ∀ l ∈ Line.ofOctets d, Line.delimiter? boundary.toList l = none := by
  intro l hl
  rw [← List.append_nil d] at hl
  rw [Line.eq_of_mem_ofOctets (isLineEnd_of_front hb h) List.nil_prefix hl, List.append_nil]
  exact delimiter?_of_front hb h hne

omit hboundary in
/-- Behind a line of its own it belongs to the content of the part in front. -/
theorem free_append_of_front {d content : Octets} (h : d <+: Text.utf8 ("--" ++ boundary ++ "-"))
    (hne : d ≠ Text.utf8 ("--" ++ boundary))
    (hfree : ∀ l ∈ Line.ofOctets (content ++ [0x0D, 0x0A]),
      Line.delimiter? boundary.toList l = none) :
    ∀ l ∈ Line.ofOctets (content ++ 0x0D :: 0x0A :: d),
      Line.delimiter? boundary.toList l = none := by
  have hsplit := Line.ofOctets_append (content ++ [0x0D]) d
  simp only [List.append_assoc, List.cons_append, List.nil_append] at hsplit
  intro l hl
  rw [hsplit, List.mem_append] at hl
  exact hl.elim (hfree l) (free_of_front hb h hne l)

/-! ### The header part -/

/-- A reply in which no delimiter has come yet. -/
theorem refused_of_free (hfree : ∀ l ∈ Line.ofOctets s, Line.delimiter? boundary.toList l = none) :
    TakenFor boundary header s none := by
  have hgroups : ∃ text, Entity.groups boundary.toList (Line.ofOctets s) = .inl text := by
    have hnone : ∀ l ∈ Line.ofOctets s, (Line.delimiter? boundary.toList l).isNone = true :=
      fun l hl => by rw [hfree l hl]; rfl
    have hspan : (Line.ofOctets s).span (fun l => (Line.delimiter? boundary.toList l).isNone) =
        (Line.ofOctets s, []) := by
      rw [List.span_eq_takeWhile_dropWhile, ← List.append_nil (Line.ofOctets s),
        takeWhile_append_stop hnone rfl, dropWhile_append_stop hnone rfl, List.append_nil]
    rw [Entity.groups, hspan]
    exact ⟨_, rfl⟩
  obtain ⟨text, htext⟩ := hgroups
  obtain ⟨fuel, hparts⟩ := readParts_form hb hboundary s
  rw [htext] at hparts
  rw [TakenFor, decode_of_isMultipart (isMultipart_formType boundary), hparts]
  exact ⟨_, rfl⟩

/-- The header part breaks off within its header lines. -/
theorem refused_fieldLines {z : Octets} (h : z <+: fieldLines (headerPart header)) :
    TakenFor boundary header (delimiterLine boundary ++ z) none := by
  obtain ⟨hhyphen, hcut⟩ := cut_header z ((List.mem_inits z _).2 h)
  obtain ⟨⟨name, content⟩, htext, hrefused⟩ := (Option.any_eq_true _ _).1 hcut
  rw [delimiterLine_eq, List.append_assoc, List.cons_append, List.cons_append, List.nil_append]
  refine (lastPart_of_textPart? hb htext hhyphen.free).refused hb hboundary fun hname => ?_
  rw [Bool.or_eq_true, decide_eq_true_eq] at hrefused
  exact headerRefused_of_isHeaderRefused (hrefused.resolve_left fun hne => hne hname)

omit hb hboundary in
/-- The content of the header part is one line, as far as it goes and with as much of a line end. -/
theorem free_headerPart {j : Octets} (h : j <+: (headerPart header).content ++ [0x0D, 0x0A]) :
    ∀ l ∈ Line.ofOctets j, Line.delimiter? boundary.toList l = none := by
  have hopen := isLineEnd_headerJson header
  have hline : ∀ l ∈ Line.ofOctets j, l = j := by
    rcases prefix_append_cases h with ⟨hj, -⟩ | ⟨e, rfl, he⟩
    · intro l hl
      rw [← List.append_nil j] at hl ⊢
      exact Line.eq_of_mem_ofOctets (fun b hb => hopen b (hj.subset hb)) List.nil_prefix hl
    · exact fun l hl => Line.eq_of_mem_ofOctets hopen he hl
  intro l hl
  rw [hline l hl]
  cases j with
  | nil => cases hl
  | cons b j =>
    obtain ⟨r, hr⟩ := h
    have hhead : (b :: j ++ r).head? = some 0x7B := by
      rw [hr, List.head?_append]
      exact congrArg (Option.or · _) (head?_headerJson header)
    exact Line.delimiter?_eq_none_of_head hhead (by decide)

/-- **The header part breaks off.** -/
theorem refused_inFirst
    (h : s <+: opening boundary (headerPart header) ++ (headerPart header).content)
    (hne : s ≠ opening boundary (headerPart header) ++ (headerPart header).content) :
    TakenFor boundary header s none := by
  rcases prefix_append_cases h with ⟨hopening, -⟩ | ⟨j, rfl, hj⟩
  · rw [opening, delimiterLine_eq, List.append_assoc] at hopening
    rcases prefix_append_cases hopening with ⟨hmark, hbroken⟩ | ⟨r, rfl, hr⟩
    · -- no delimiter has come yet
      rw [← utf8_mark] at hmark hbroken
      exact refused_of_free hb hboundary
        (free_of_front hb (hmark.trans (mark_front boundary)) hbroken)
    · rcases prefix_append_cases hr with ⟨hend, -⟩ | ⟨z, rfl, hz⟩
      · exact (lastPart_delimiter hb hend).refused hb hboundary fun hname => nomatch hname
      · have hrefused := refused_fieldLines hb hboundary hz
        rwa [delimiterLine_eq, List.append_assoc] at hrefused
  · have hbroken : j ≠ (headerPart header).content := fun heq => hne (by rw [heq])
    have hopen : ∀ b ∈ j, isLineEnd b = false :=
      fun b hb => isLineEnd_headerJson header b (hj.subset hb)
    exact ((leaf_header _).lastPart_opening hb
      (free_headerPart (hj.trans (List.prefix_append _ _)))
      (Line.withoutEnd_of_open hopen)).refused hb hboundary
        fun _ => headerRefused_fragment header hj hbroken

/-- The header part has come, and nothing of the payload part. -/
theorem taken_behindFirst {e : Octets} (he : e <+: Text.utf8 "\r\n") :
    TakenFor boundary header
      (opening boundary (headerPart header) ++ (headerPart header).content ++ e) (some []) := by
  rw [utf8_lineEnd] at he
  have hcontent : Line.withoutEnd ((headerPart header).content ++ e) =
      (headerPart header).content := by
    by_cases hnil : e = []
    · rw [hnil, List.append_nil]
      exact Line.withoutEnd_of_open (isLineEnd_headerJson header)
    · exact Line.withoutEnd_append_of_front _ he hnil
  rw [List.append_assoc]
  exact ((leaf_header _).lastPart_opening hb
    (free_headerPart ((List.prefix_append_right_inj _).2 he)) hcontent).taken_header hb hboundary

omit hboundary in
/-- A piece of the mark is a text that does not begin with a blank. -/
theorem exists_text_of_front {d : Octets} (h : d <+: Text.utf8 ("--" ++ boundary)) (hne : d ≠ []) :
    ∃ t, d = encode t ∧ (∀ c ∈ t, 0 < c.toNat ∧ c.toNat < 0x80) ∧ Json.skipBlanks t = t ∧
      t ≠ [] := by
  have hascii : ∀ c ∈ "--".toList ++ boundary.toList, 0 < c.toNat ∧ c.toNat < 0x80 := by
    intro c hc
    rcases List.mem_append.1 hc with hc | hc
    · exact forall_mem_of_all (p := fun c => 0 < c.toNat ∧ c.toNat < 0x80) (by decide) c hc
    · have hrange := hb.range hc
      omega
  rw [Text.utf8, String.toList_append] at h
  obtain ⟨t, ht, rfl⟩ := exists_prefix_of_encode (fun c hc => (hascii c hc).2) h
  refine ⟨t, rfl, fun c hc => hascii c (ht.subset hc), ?_, fun hnil => hne (by rw [hnil]; rfl)⟩
  cases t with
  | nil => rfl
  | cons c t =>
    have hhyphens : c :: t <+: '-' :: ('-' :: boundary.toList) := ht
    obtain ⟨rfl, -⟩ := List.cons_prefix_cons.1 hhyphens
    exact Json.skipBlanks_cons (by decide) t

/-- The header part with a piece of the mark behind it. -/
theorem refused_inMark {d : Octets} (h : d <+: Text.utf8 ("--" ++ boundary)) (hne : d ≠ [])
    (hne' : d ≠ Text.utf8 ("--" ++ boundary)) :
    TakenFor boundary header (framePart boundary (headerPart header) ++ d) none := by
  have hhyphen := h.trans (mark_front boundary)
  have hcontent := Line.withoutEnd_append_of_open
    ((headerPart header).content ++ [0x0D, 0x0A]) hne (isLineEnd_of_front hb hhyphen)
  obtain ⟨t, rfl, hascii, hskip, hnil⟩ := exists_text_of_front hb h hne
  have hrefused : HeaderRefused ((headerPart header).content ++ encode ('\r' :: '\n' :: t)) := by
    refine headerRefused_append header ?_ ?_
    · intro c hc
      rcases List.mem_cons.1 hc with rfl | hc
      · decide
      rcases List.mem_cons.1 hc with rfl | hc
      · decide
      · exact hascii c hc
    · show Json.skipBlanks t ≠ []
      rwa [hskip]
  rw [framePart_eq_opening, utf8_lineEnd]
  simp only [List.append_assoc, List.cons_append, List.nil_append] at hcontent ⊢
  exact ((leaf_header _).lastPart_opening hb (free_append_of_front hb hhyphen hne'
    (free_header header boundary.toList)) hcontent).refused hb hboundary fun _ => hrefused

/-! ### The payload part -/

/-- The payload part breaks off within its header lines. -/
theorem taken_inFields {z : Octets} (h : z <+: fieldLines (payloadPart payload)) :
    TakenFor boundary header
      (framePart boundary (headerPart header) ++ (delimiterLine boundary ++ z))
      (some (fieldRemnant z)) := by
  obtain ⟨hhyphen, hcut⟩ := cut_payload z ((List.mem_inits z _).2 h)
  obtain ⟨⟨name, content⟩, htext, hremnant⟩ := (Option.any_eq_true _ _).1 hcut
  rw [Bool.and_eq_true, decide_eq_true_eq, decide_eq_true_eq] at hremnant
  rw [delimiterLine_eq, List.append_assoc, List.cons_append, List.cons_append, List.nil_append,
    ← hremnant.2]
  exact (lastPart_of_textPart? hb htext hhyphen.free).taken_payload hb hboundary hremnant.1

/-- The payload part breaks off behind its header lines. -/
theorem taken_payloadPart {q : Octets}
    (hfree : ∀ l ∈ Line.ofOctets q, Line.delimiter? boundary.toList l = none)
    (hq : Line.withoutEnd q = content) :
    TakenFor boundary header
      (framePart boundary (headerPart header) ++ (opening boundary (payloadPart payload) ++ q))
      (some content) := by
  have hlast : LastPart boundary (opening boundary (payloadPart payload) ++ q)
      (some "payload".toList) content := (leaf_payload _).lastPart_opening hb hfree hq
  exact hlast.taken_payload hb hboundary (by decide)

/-- **Every place is read so.** -/
theorem Torn.taken {taken : Option Octets}
    (h : Torn boundary (headerPart header) (payloadPart payload) s taken)
    (hfree : ¬ Text.utf8 ("--" ++ boundary) <:+: payload.wire) :
    TakenFor boundary header s taken := by
  have hnone : ∀ {q e}, q <+: payload.wire → e <+: [0x0D, 0x0A] → ∀ l ∈ Line.ofOctets (q ++ e),
      Line.delimiter? boundary.toList l = none := by
    rw [utf8_mark] at hfree
    exact fun hq he l hl => Line.delimiter?_eq_none_of_front
      (fun hpiece => hfree (hpiece.trans hq.isInfix)) (isLineEnd_mark hb) he hl
  cases h with
  | inFirst h hne => exact refused_inFirst hb hboundary h hne
  | behindFirst h => exact taken_behindFirst hb hboundary h
  | inMark h hne hne' => exact refused_inMark hb hboundary h hne hne'
  | behindMark h hne =>
    rw [utf8_lineEnd] at h
    rw [utf8_mark]
    exact (lastPart_delimiter hb h).taken_payload hb hboundary (by decide)
  | inFields h hne => exact taken_inFields hb hboundary h
  | inSecond h =>
    have hq := hnone h List.nil_prefix
    rw [List.append_nil] at hq
    exact taken_payloadPart hb hboundary hq rfl
  | behindSecond h hne =>
    rw [utf8_lineEnd] at h
    exact taken_payloadPart hb hboundary (hnone (List.prefix_refl _) h)
      (Line.withoutEnd_append_of_front _ h hne)
  | inFinal h hne hne' =>
    -- what has come of the final delimiter belongs to the payload
    have hcontent := Line.withoutEnd_append_of_open
      ((payloadPart payload).content ++ [0x0D, 0x0A]) hne (isLineEnd_of_front hb h)
    have hline := hnone (List.prefix_refl _) (List.prefix_refl _)
    rw [List.append_assoc, framePart_eq_opening boundary (payloadPart payload), utf8_lineEnd]
    simp only [List.append_assoc, List.cons_append, List.nil_append] at hcontent ⊢
    exact taken_payloadPart hb hboundary (free_append_of_front hb h hne' hline) hcontent
  | beforeFinal =>
    have hlast : LastPart boundary (Line.mark boundary.toList ++ []) none [] :=
      lastPart_delimiter hb List.nil_prefix
    rw [List.append_nil, ← utf8_mark] at hlast
    exact hlast.taken_both hb hboundary hfree

end Taken

/-! ## Replies that break off -/

/-- The final delimiter is a line of its own, with as much of its line end as has come. -/
theorem final_mem_lines (hb : IsPrintableText boundary.toList) (header : Header) (payload : Payload)
    {e : Octets} (he : e <+: [0x0D, 0x0A]) :
    ∃ l ∈ Line.ofOctets ((filesOf header payload).flatMap (framePart boundary) ++
        (Line.mark boundary.toList ++ [0x2D, 0x2D] ++ e)),
      Line.delimiter? boundary.toList l = some .final := by
  have hparts : ∀ part ∈ filesOf header payload, ∀ f ∈ partHeader part,
      Field.Writable f.1 f.2 :=
    List.forall_mem_cons.2 ⟨(leaf_header _).writable,
      List.forall_mem_singleton.2 (leaf_payload _).writable⟩
  refine ⟨Line.mark boundary.toList ++ [0x2D, 0x2D] ++ e, ?_, ?_⟩
  · rw [ofOctets_parts hb hparts, Line.ofOctets_singleton (isLineEnd_final hb) he
      (List.append_ne_nil_of_left_ne_nil (List.append_ne_nil_of_right_ne_nil _ (by decide)) _)]
    exact List.mem_concat_self
  · rw [List.append_assoc]
    rcases Line.prefix_lineEnd he with rfl | rfl | rfl
    all_goals exact Line.delimiter?_mark_append hb.all_ascii _

/-- A framed message is at one of the places as long as its final delimiter is no line of it. -/
theorem exists_torn_of_front (hb : IsPrintableText boundary.toList) {header : Header}
    {payload : Payload} (hfront : s <+: frame boundary (filesOf header payload))
    (hcut : ∀ l ∈ Line.ofOctets s, Line.delimiter? boundary.toList l ≠ some .final) :
    ∃ taken, Torn boundary (headerPart header) (payloadPart payload) s taken := by
  have hparts : (filesOf header payload).flatMap (framePart boundary) =
      framePart boundary (headerPart header) ++ framePart boundary (payloadPart payload) :=
    congrArg _ (List.append_nil _)
  have hfinal : Text.utf8 ("--" ++ boundary ++ "--\r\n") =
      Text.utf8 ("--" ++ boundary ++ "-") ++ 0x2D :: [0x0D, 0x0A] := by
    rw [utf8_append, utf8_append _ "-", List.append_assoc]
    rfl
  rw [frame, hparts, hfinal, ← List.append_assoc] at hfront
  rcases prefix_append_cases hfront with ⟨hinside, -⟩ | ⟨r, hs, hr⟩
  · rw [List.append_assoc] at hinside
    exact exists_torn hinside
  · cases r with
    | nil =>
      rw [hs, List.append_nil, List.append_assoc]
      exact exists_torn (List.prefix_refl _)
    | cons x e =>
      -- both hyphens of the final delimiter are there
      obtain ⟨rfl, he⟩ := List.cons_prefix_cons.1 hr
      obtain ⟨l, hl, hkind⟩ := final_mem_lines hb header payload he
      refine absurd hkind (hcut l ?_)
      rw [hparts] at hl
      rw [hs, utf8_mark_hyphen]
      simp only [List.append_assoc, List.cons_append, List.nil_append] at hl ⊢
      exact hl

/-- **A reply that breaks off.** Let a message be framed as a form, with a boundary of thirty-two
hexadecimal digits whose mark does not occur in the payload, and let the octets end before the final
delimiter is there as a line. Then they end at one of the places of `Torn`, and the reply is
refused, or taken for a whole one with what `Torn` says for its payload. -/
theorem decode_torn (header : Header) (payload : Payload) (boundary : String)
    (hlength : boundary.toList.length = 32)
    (hdigits : ∀ c ∈ boundary.toList, (Text.hexValue? c).isSome = true)
    (hfree : ¬ Text.utf8 ("--" ++ boundary) <:+: payload.wire) {s : Octets}
    (hfront : s <+: frame boundary (filesOf header payload))
    (hcut : ∀ l ∈ Line.ofOctets s, Line.delimiter? boundary.toList l ≠ some .final) :
    ∃ taken, Torn boundary (headerPart header) (payloadPart payload) s taken ∧
      match taken with
      | none => ∃ fault, decode (some (formType boundary)) s = .error (.transport fault none)
      | some content => decode (some (formType boundary)) s = .ok ⟨header, .octets content⟩ := by
  have hb : IsTokenText boundary.toList := IsHexText.isTokenText hdigits
  have hboundary : boundary ≠ "" := by
    rintro rfl
    cases hlength
  obtain ⟨taken, htorn⟩ := exists_torn_of_front hb hfront hcut
  refine ⟨taken, htorn, ?_⟩
  have htaken := htorn.taken hb hboundary hfree
  cases taken with
  | none => exact htaken
  | some content => exact htaken

/-- A boundary as the transport draws them. -/
def drawnBoundary : String :=
  "0123456789abcdef0123456789abcdef"

/-- A message of two octets, framed as a form. -/
def twoOctets : Octets :=
  frame drawnBoundary (filesOf (.ofPairs [("@type", "x")]) (.octets [0x61, 0x62]))

/-- One hyphen is missing, and the payload holds the rest of the delimiter. -/
theorem decode_torn_atLastHyphen :
    ∃ taken, Torn drawnBoundary (headerPart (.ofPairs [("@type", "x")]))
        (payloadPart (.octets [0x61, 0x62])) (twoOctets.take 301) taken ∧
      match taken with
      | none => ∃ fault, decode (some (formType drawnBoundary)) (twoOctets.take 301) =
          .error (.transport fault none)
      | some content => decode (some (formType drawnBoundary)) (twoOctets.take 301) =
          .ok ⟨.ofPairs [("@type", "x")], .octets content⟩ :=
  decode_torn _ _ _ (by decide +kernel) (forall_mem_of_all (by decide +kernel))
    (by decide +kernel) (List.take_prefix _ _) (by decide +kernel)

/-- **A shortened payload.** The second of two octets has not come, and neither has anything behind
it, but the reply is taken for a whole one. -/
theorem decode_shortened :
    twoOctets.take 263 <+: twoOctets ∧ twoOctets.take 263 ≠ twoOctets ∧
    (∀ l ∈ Line.ofOctets (twoOctets.take 263),
      Line.delimiter? drawnBoundary.toList l ≠ some .final) ∧
    decode (some (formType drawnBoundary)) (twoOctets.take 263) =
      .ok ⟨.ofPairs [("@type", "x")], .octets [0x61]⟩ :=
  ⟨List.take_prefix _ _, by decide +kernel, by decide +kernel, by decide +kernel⟩

end Dataspace.Multipart
