import Dataspace.Mime.Entity
import Dataspace.Proofs.Line
import Mathlib.Data.List.TakeDrop

/-!
# Header fields read back

The lines in front of a body are written as `name: value`, in ASCII and without continuations. This
module says what the reader of entities makes of such lines:

* **`ofLines?_line`** — one line gives one field, with its name in lower case.
* **`splitHeader_lines`** — the lines of a header end at the first empty line.
* **`ofHeader_lines`** — a header gives its fields in their order.
-/

namespace Dataspace.Mime

open Text (Octets)
open Text.Utf8 (encode encode_ascii toNat_ascii mem_encode_ascii)

/-! ## Texts of glyphs -/

namespace Glyphs

theorem toOctets_ofChars (cs : List Char) : toOctets (ofChars cs) = encode cs :=
  List.flatMap_map ..

/-- A text of characters is readable as it is. -/
theorem readable_ofChars (cs : List Char) : readable (ofChars cs) = cs := by
  rw [readable, toOctets_ofChars, Text.Utf8.runs_encode, List.map_map]
  exact List.map_id cs

theorem ofOctets_encode {cs : List Char} (h : ∀ c ∈ cs, c.toNat < 0x80) :
    ofOctets (encode cs) = ofChars cs := by
  rw [encode_ascii h, ofOctets, ofChars, List.map_map]
  refine List.map_congr_left fun c hc => ?_
  have hsize : c.toNat.toUInt8 < 0x80 := by
    rw [UInt8.lt_iff_toNat_lt, toNat_ascii (h c hc)]
    exact h c hc
  rw [Function.comp_apply, Glyph.ofOctet, if_pos hsize, toNat_ascii (h c hc), Char.ofNat_toNat]

end Glyphs

namespace Field

/-! ## Lines -/

def line (name value : List Char) : Octets :=
  encode name ++ 0x3A :: 0x20 :: (encode value ++ [0x0D, 0x0A])

theorem line_eq (name value : List Char) :
    line name value = (encode name ++ 0x3A :: 0x20 :: encode value) ++ [0x0D, 0x0A] := by
  simp only [line, List.append_assoc, List.cons_append]

/-- A name and a value that can stand in one header line. -/
structure Writable (name value : List Char) : Prop where
  name_ne_nil : name ≠ []
  name_mem : ∀ c ∈ name, 0x21 ≤ c.toNat ∧ c.toNat ≤ 0x7E ∧ c.toNat ≠ 0x3A
  value_mem : ∀ c ∈ value, 0x20 ≤ c.toNat ∧ c.toNat ≤ 0x7E
  value_head : value.head? ≠ some ' '

variable {name value : List Char}

instance : Decidable (Writable name value) :=
  decidable_of_iff
    (name ≠ [] ∧ name.all (fun c => decide (0x21 ≤ c.toNat ∧ c.toNat ≤ 0x7E ∧ c.toNat ≠ 0x3A)) ∧
      value.all (fun c => decide (0x20 ≤ c.toNat ∧ c.toNat ≤ 0x7E)) ∧ value.head? ≠ some ' ')
    ⟨fun ⟨hne, hname, hvalue, hhead⟩ =>
        ⟨hne, forall_mem_of_all hname, forall_mem_of_all hvalue, hhead⟩,
      fun h => ⟨h.name_ne_nil, List.all_eq_true.2 fun c hc => decide_eq_true (h.name_mem c hc),
        List.all_eq_true.2 fun c hc => decide_eq_true (h.value_mem c hc), h.value_head⟩⟩

theorem Writable.name_ascii (h : Writable name value) : ∀ c ∈ name, c.toNat < 0x80 :=
  fun c hc => Nat.lt_succ_of_le (Nat.le_succ_of_le (h.name_mem c hc).2.1)

theorem Writable.value_ascii (h : Writable name value) : ∀ c ∈ value, c.toNat < 0x80 :=
  fun c hc => Nat.lt_succ_of_le (Nat.le_succ_of_le (h.value_mem c hc).2)

theorem Writable.isNameOctet (h : Writable name value) :
    ∀ b ∈ encode name, isNameOctet b = true := by
  intro b hb
  obtain ⟨c, hc, hnumber⟩ := mem_encode_ascii h.name_ascii hb
  obtain ⟨hlow, hhigh, hcolon⟩ := h.name_mem c hc
  have hne : b ≠ 0x3A := by
    rintro rfl
    exact hcolon hnumber.symm
  simp only [Field.isNameOctet, Bool.and_eq_true, decide_eq_true_eq, UInt8.le_iff_toNat_le, hnumber]
  exact ⟨⟨hlow, hhigh⟩, hne⟩

/-- What stands after the name is the colon. -/
theorem Writable.dropWhile_line (h : Writable name value) :
    (line name value).dropWhile Field.isNameOctet =
      0x3A :: 0x20 :: (encode value ++ [0x0D, 0x0A]) :=
  dropWhile_append_stop h.isNameOctet rfl

/-- A line with a colon after its name is no envelope mark: there a space stands before it. -/
theorem Writable.isEnvelope_line (h : Writable name value) :
    isEnvelope (line name value) = false := by
  refine Bool.eq_false_iff.2 fun henvelope => ?_
  obtain ⟨r, hr⟩ := List.isPrefixOf_iff_prefix.1 henvelope
  -- after the first octets of a name that could begin so there is a space, and no colon
  have hdrop := h.dropWhile_line
  rw [← hr] at hdrop
  have hspace : (Text.utf8 "From " ++ r).dropWhile Field.isNameOctet = 0x20 :: r := rfl
  rw [hspace] at hdrop
  cases hdrop

theorem Writable.isHeaderLine (h : Writable name value) :
    isHeaderLine (line name value) = true := by
  rw [Field.isHeaderLine, h.dropWhile_line]
  exact Bool.or_true _

theorem Writable.isContinuation (h : Writable name value) :
    isContinuation (line name value) = false := by
  have hname := h.isNameOctet
  rw [line]
  cases hencode : encode name with
  | nil => rfl
  | cons b r =>
    have hb := hname b (hencode ▸ List.mem_cons_self)
    simp only [Field.isNameOctet, Bool.and_eq_true, decide_eq_true_eq, UInt8.le_iff_toNat_le] at hb
    have hlow : 0x21 ≤ b.toNat := hb.1.1
    refine Bool.eq_false_iff.2 fun hgap => ?_
    simp only [List.cons_append, Field.isContinuation, isGapOctet, Bool.or_eq_true,
      beq_iff_eq] at hgap
    rcases hgap with rfl | rfl <;> exact absurd hlow (by decide)

theorem Writable.value_octet (h : Writable name value) :
    ∀ b ∈ encode value, 0x20 ≤ b.toNat ∧ b.toNat ≤ 0x7E := by
  intro b hb
  obtain ⟨c, hc, hnumber⟩ := mem_encode_ascii h.value_ascii hb
  rw [hnumber]
  exact h.value_mem c hc

theorem Writable.head_value (h : Writable name value) :
    (encode value ++ [0x0D, 0x0A]).head?.any isGapOctet = false := by
  cases value with
  | nil => rfl
  | cons c cs =>
    have hascii := h.value_ascii c List.mem_cons_self
    have hlow := (h.value_mem c List.mem_cons_self).1
    have hne : c.toNat ≠ 0x20 := fun hspace =>
      h.value_head (congrArg some (Char.toNat_inj.1 (hspace.trans rfl)))
    rw [encode_ascii h.value_ascii, List.map_cons, List.cons_append, List.head?_cons,
      Option.any_some]
    refine Bool.eq_false_iff.2 fun hgap => ?_
    simp only [isGapOctet, Bool.or_eq_true, beq_iff_eq] at hgap
    have hnumber := toNat_ascii hascii
    rcases hgap with hgap | hgap <;> rw [hgap] at hnumber
    · exact hne hnumber.symm
    · have htab : 0x09 = c.toNat := hnumber
      omega

/-- No line end stands inside a header line. -/
theorem Writable.isLineEnd (h : Writable name value) :
    ∀ b ∈ encode name ++ 0x3A :: 0x20 :: encode value, isLineEnd b = false := by
  intro b hb
  have hlow : 0x20 ≤ b.toNat := by
    rw [List.mem_append, List.mem_cons, List.mem_cons] at hb
    rcases hb with hb | rfl | rfl | hb
    · obtain ⟨c, hc, hnumber⟩ := mem_encode_ascii h.name_ascii hb
      have hname := (h.name_mem c hc).1
      omega
    · decide
    · decide
    · exact (h.value_octet b hb).1
  exact Line.isLineEnd_of_le hlow

/-- No line end stands inside a value. -/
theorem Writable.filter_value (h : Writable name value) :
    ((encode value ++ [0x0D, 0x0A]).filter fun b => !Mime.isLineEnd b) = encode value := by
  have hnone : ∀ b ∈ encode value, (!Mime.isLineEnd b) = true := by
    intro b hb
    have hend := h.isLineEnd b (List.mem_append_right _
      (List.mem_cons_of_mem _ (List.mem_cons_of_mem _ hb)))
    rw [hend]
    rfl
  rw [List.filter_append, List.filter_eq_self.2 hnone]
  exact List.append_nil _

/-- **One line, one field.** -/
theorem ofLines?_line (h : Writable name value) :
    ofLines? (line name value) [] =
      some ⟨name.map Char.toLower, Glyphs.ofChars value⟩ := by
  have hspan : (line name value).span (fun b => decide (b ≠ 0x3A)) =
      (encode name, 0x3A :: 0x20 :: (encode value ++ [0x0D, 0x0A])) := by
    have hname : ∀ b ∈ encode name, decide (b ≠ 0x3A) = true := by
      intro b hb
      have hoctet := h.isNameOctet b hb
      simp only [Field.isNameOctet, Bool.and_eq_true] at hoctet
      exact hoctet.2
    rw [List.span_eq_takeWhile_dropWhile, line, takeWhile_append_stop hname rfl,
      dropWhile_append_stop hname rfl]
  have hnames : (encode name).map (fun b => (Char.ofNat b.toNat).toLower) =
      name.map Char.toLower := by
    rw [encode_ascii h.name_ascii, List.map_map]
    refine List.map_congr_left fun c hc => ?_
    rw [Function.comp_apply, toNat_ascii (h.name_ascii c hc), Char.ofNat_toNat]
  have hdrop : ((0x3A :: 0x20 :: (encode value ++ [0x0D, 0x0A])).drop 1).dropWhile isGapOctet =
      encode value ++ [0x0D, 0x0A] :=
    show ([0x20] ++ (encode value ++ [0x0D, 0x0A])).dropWhile isGapOctet = _ from
      dropWhile_append_stop (forall_mem_of_all (by decide)) h.head_value
  rw [ofLines?, hspan]
  -- a line without a name would be no field
  cases hencode : encode name with
  | nil =>
    rw [encode_ascii h.name_ascii] at hencode
    exact absurd (List.map_eq_nil_iff.1 hencode) h.name_ne_nil
  | cons b r =>
    rw [hencode] at hnames
    simp only [h.isEnvelope_line, Bool.false_eq_true, if_false, List.flatten_nil, List.append_nil,
      hdrop, h.filter_value, hnames, Glyphs.ofOctets_encode h.value_ascii]

/-! ## Headers -/

def lines (fields : List (List Char × List Char)) : List Octets :=
  fields.map fun f => line f.1 f.2

variable {fields : List (List Char × List Char)}

/-- No line of a header goes on with the one before. -/
theorem grouped_lines (h : ∀ f ∈ fields, Writable f.1 f.2) :
    grouped (lines fields) = ([], (lines fields).map fun l => (l, [])) := by
  induction fields with
  | nil => rfl
  | cons f fields ih =>
    have hfirst := h f List.mem_cons_self
    have hrest := ih fun g hg => h g (List.mem_cons_of_mem _ hg)
    rw [lines] at hrest
    rw [lines, List.map_cons, grouped, hrest]
    simp only [hfirst.isContinuation, Bool.false_eq_true, if_false]
    rfl

/-- **A header gives its fields**, in their order. -/
theorem ofHeader_lines (h : ∀ f ∈ fields, Writable f.1 f.2) :
    ofHeader (lines fields) =
      fields.map fun f => ⟨f.1.map Char.toLower, Glyphs.ofChars f.2⟩ := by
  rw [ofHeader, grouped_lines h]
  simp only [lines]
  -- every line stands alone now, so the fields come out one by one
  induction fields with
  | nil => rfl
  | cons f fields ih =>
    have hfirst := ofLines?_line (h f List.mem_cons_self)
    have hrest := ih fun g hg => h g (List.mem_cons_of_mem _ hg)
    simp only [List.map_cons, List.filterMap_cons, hfirst, hrest]

/-- **A header ends at the first empty line.** -/
theorem splitHeader_lines (h : ∀ f ∈ fields, Writable f.1 f.2) (body : List Octets) :
    splitHeader (lines fields ++ [0x0D, 0x0A] :: body) = (lines fields, body) := by
  have hlines : ∀ l ∈ lines fields, isHeaderLine l = true := by
    intro l hl
    obtain ⟨f, hf, rfl⟩ := List.mem_map.1 hl
    exact (h f hf).isHeaderLine
  have hspan : (lines fields ++ [0x0D, 0x0A] :: body).span isHeaderLine =
      (lines fields, [0x0D, 0x0A] :: body) := by
    rw [List.span_eq_takeWhile_dropWhile, takeWhile_append_stop hlines rfl,
      dropWhile_append_stop hlines rfl]
  rw [splitHeader, hspan]
  simp only [show Line.isEmpty [0x0D, 0x0A] = true from rfl, if_true]
  cases hlast : (lines fields).getLast? with
  | none => rfl
  | some l =>
    -- the last line is no envelope mark either
    obtain ⟨f, hf, rfl⟩ := List.mem_map.1 (List.mem_of_getLast? hlast)
    simp only [(h f hf).isEnvelope_line, Bool.false_and, Bool.false_eq_true, if_false]

end Field

end Dataspace.Mime
