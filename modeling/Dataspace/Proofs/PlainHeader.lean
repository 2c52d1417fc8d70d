import Dataspace.Mime.Entity
import Dataspace.Proofs.Basic
import Dataspace.Proofs.Line
import Dataspace.Proofs.TokenRest

/-!
# Messages without asterisks

An asterisk after the name of a parameter marks a section of a value, or a value with an encoding.
Every `HeaderFault` hangs on such a mark. A message without asterisks in the lines that can belong
to a header meets with none, whatever else it holds.

* **`Parameter.marks_of_plain`** — no asterisk, no mark.
* **`parametersShown_of_plain`**, **`Field.mediaTypeShown_of_plain`** — parameters and fields.
* **`Field.PlainLines.not_mem_header`** — only lines that can belong to a header come into one.
* **`Entity.read_of_plain`** — entities within entities, by induction on the depth.
-/

namespace Dataspace.Mime

open Text (Octets)

variable {s rest : Glyphs}

/-- A header text without asterisks. -/
def IsPlain (s : Glyphs) : Prop :=
  Glyph.char '*' ∉ s

theorem IsPlain.of_suffix (h : IsPlain s) (hrest : rest <:+ s) : IsPlain rest :=
  fun hmem => h (hrest.subset hmem)

namespace Parameter

/-! ## Readings -/

/-- A reading that reports no fault, and gives nothing but what a predicate holds of. -/
def Reads {α : Type} (post : α → Prop) : Reading α → Prop
  | .error .refused => True
  | .error (.fault _) => False
  | .ok a => post a

namespace Reads

variable {α β : Type} {post : α → Prop} {post' : β → Prop}

theorem pure {a : α} (h : post a) : Reads post (Pure.pure a) :=
  h

theorem bind {x : Reading α} {f : α → Reading β} (hx : Reads post x)
    (hf : ∀ a, post a → Reads post' (f a)) : Reads post' (x >>= f) := by
  match x with
  | .error .refused => exact True.intro
  | .error (.fault _) => exact hx.elim
  | .ok a => exact hf a hx

theorem mono {x : Reading α} {post' : α → Prop} (hx : Reads post x)
    (h : ∀ a, post a → post' a) : Reads post' x := by
  match x with
  | .error .refused => exact True.intro
  | .error (.fault _) => exact hx.elim
  | .ok a => exact h a hx

theorem orRefuse {found : Option α} (h : ∀ a, found = some a → post a) :
    Reads post (Parameter.orRefuse found) := by
  cases found with
  | none => exact True.intro
  | some a => exact h a rfl

end Reads

/-! ## Entries -/

theorem reads_plainValue (s : Glyphs) : Reads (fun found => found.2 <:+ s) (plainValue s) := by
  refine .orRefuse fun found h => ?_
  obtain ⟨⟨shown, value, rest⟩, hfound, rfl⟩ := Option.map_eq_some_iff.1 h
  exact Token.suffix_of_surrounded
    (Token.leavesEnd_quotedContent.or (Token.leavesEnd_run Token.valueEnds)) hfound

theorem reads_afterLanguage (s : Glyphs) : Reads (fun rest => rest <:+ s) (afterLanguage s) := by
  unfold afterLanguage
  split
  · exact List.suffix_refl _
  split
  · exact List.suffix_cons _ _
  split
  · rename_i hrun
    split
    · exact (List.suffix_cons _ _).trans (Token.leavesEnd_run _ _ _ _ hrun)
    · exact True.intro
  · exact True.intro

/-- A parameter with a value, and an end of the input. -/
def IsEntry (s : Glyphs) (found : Parameter × Glyphs) : Prop :=
  found.1.value.isSome = true ∧ found.2 <:+ s

/-- A value is there unless it stands in quotes, and the text goes on behind these. -/
theorem reads_valueOf (name : Glyphs) (part : Nat) (extended : Bool) (s : Glyphs) :
    Reads (IsEntry s) (valueOf name part extended none s) := by
  unfold valueOf
  extract_lets marked next
  -- what is done with the text in front of the mark, if there is one
  have hnext : ∀ found : Glyphs × Glyphs, found.2 <:+ s → Reads (IsEntry s) (next found) := by
    rintro ⟨first, rest⟩ hrest
    simp only [next]
    split
    · exact .pure ⟨rfl, hrest⟩
    split
    · exact .pure ⟨rfl, List.nil_suffix⟩
    · rename_i mark r _
      split
      · exact True.intro
      refine .bind (reads_afterLanguage r) fun after hafter => ?_
      refine .bind (reads_plainValue after) fun found hfound => .pure ⟨rfl, ?_⟩
      exact hfound.trans (hafter.trans ((List.suffix_cons mark r).trans hrest))
  split
  · exact hnext ([], s) (List.suffix_refl s)
  · exact .bind (reads_plainValue s) hnext

/-- **No asterisk, no mark.** -/
theorem marks_of_plain (h : IsPlain s) : marks s = .ok (0, false, s) := by
  unfold marks
  split
  · exact absurd List.mem_cons_self h
  · rfl

/-- **One entry.** -/
theorem reads_read (h : IsPlain s) : Reads (IsEntry s) (read s) := by
  have hname : Reads (fun found => found.2.2 <:+ s)
      (orRefuse (Token.surrounded (Token.run Token.nameEnds) s)) :=
    .orRefuse fun _ hfound => Token.suffix_of_surrounded (Token.leavesEnd_run Token.nameEnds) hfound
  refine hname.bind ?_
  rintro ⟨shown, name, rest⟩ hrest
  simp only
  split
  · exact .pure ⟨rfl, hrest⟩
  rw [marks_of_plain (h.of_suffix hrest)]
  cases rest with
  | nil => exact absurd rfl ‹_›
  | cons sign r =>
    have hvalue := reads_valueOf (Text.stripBy Glyph.isBlank name) 0 false (Token.gaps r).2
    have hr : (Token.gaps r).2 <:+ s :=
      (Token.suffix_gaps r).trans ((List.suffix_cons sign r).trans hrest)
    show Reads _ (if sign ≠ .char '=' then _ else _)
    split
    · exact True.intro
    · exact hvalue.mono fun found hfound => ⟨hfound.1, hfound.2.trans hr⟩

/-- **All entries.** -/
theorem readAll_of_plain (fuel : Nat) : ∀ {s}, IsPlain s →
    ∃ ps, readAll fuel s = .ok ps ∧ ∀ p ∈ ps, p.value.isSome = true := by
  induction fuel with
  | zero => exact fun _ => ⟨[], rfl, fun p hp => nomatch hp⟩
  | succ fuel ih =>
    intro s h
    have hentry := reads_read h
    -- what follows an entry is an end of what follows its value
    have hbehind : ∀ {r : Glyphs}, r <:+ s → IsPlain ((Token.upToSemicolon r).2.drop 1) :=
      fun hr => h.of_suffix ((List.drop_suffix 1 _).trans ((Token.suffix_upToSemicolon _).trans hr))
    rw [readAll]
    split
    · exact ⟨[], rfl, fun p hp => nomatch hp⟩
    split
    · rename_i hread
      rw [hread] at hentry
      exact hentry.elim
    · exact ih (hbehind (Token.suffix_gaps s))
    · rename_i p rest hread
      rw [hread] at hentry
      obtain ⟨ps, hps, hvalues⟩ := ih (hbehind hentry.2)
      rw [hps]
      exact ⟨p :: ps, rfl, List.forall_mem_cons.2 ⟨hentry.1, hvalues⟩⟩

/-! ## Values in sections -/

variable {ps : List Parameter}

theorem exists_text {p : Parameter} (h : p.value.isSome = true) (charset : Text.Charset) :
    ∃ t, p.text charset = .ok t := by
  obtain ⟨value, hvalue⟩ := Option.isSome_iff_exists.1 h
  rw [text, hvalue]
  simp only
  split
  · exact ⟨_, rfl⟩
  split
  · exact ⟨_, rfl⟩
  · exact ⟨_, rfl⟩

theorem exists_texts (charset : Text.Charset) (h : ∀ p ∈ ps, p.value.isSome = true) :
    ∀ next, ∃ t, texts charset next ps = .ok t := by
  induction ps with
  | nil => exact fun _ => ⟨[], rfl⟩
  | cons p ps ih =>
    intro next
    have hmore := ih fun q hq => h q (List.mem_cons_of_mem _ hq)
    obtain ⟨t, ht⟩ := exists_text (h p List.mem_cons_self) charset
    obtain ⟨more, htexts⟩ := hmore (next + 1)
    rw [texts]
    split
    · exact hmore next
    · rw [ht]
      simp only [htexts]
      exact ⟨t ++ more, rfl⟩

theorem exists_combined (h : ∀ p ∈ ps, p.value.isSome = true) : ∃ t, combined ps = .ok t := by
  have hsorted : ∀ p ∈ ps.mergeSort fun p q => p.part ≤ q.part, p.value.isSome = true :=
    fun p hp => h p (List.mem_mergeSort.1 hp)
  unfold combined
  split
  · exact ⟨[], rfl⟩
  · rename_i first second r heq
    rw [heq] at hsorted
    split
    · exact exists_texts _ (List.forall_mem_singleton.2 (hsorted _ List.mem_cons_self)) 0
    · exact exists_texts _ hsorted 0
  · rename_i first heq
    rw [heq] at hsorted
    exact exists_texts _ hsorted 0

theorem exists_resolve (h : ∀ p ∈ ps, p.value.isSome = true) :
    ∃ pairs, resolve ps = .ok pairs := by
  have hpairs : ∀ name ∈ names ps, ∃ pair, (do
      return (name, ← combined (ps.filter fun p => p.name = name)) : Except HeaderFault _) =
        .ok pair ∧ True := by
    intro name _
    obtain ⟨t, ht⟩ := exists_combined fun p hp => h p (List.mem_of_mem_filter hp)
    exact ⟨(name, t), by rw [ht]; rfl, True.intro⟩
  obtain ⟨pairs, hresolved, -⟩ := exists_mapM_eq_ok hpairs
  exact ⟨pairs, hresolved⟩

end Parameter

/-- **Parameters.** -/
theorem parametersShown_of_plain (h : IsPlain s) : ∃ shown, parametersShown s = .ok shown := by
  obtain ⟨ps, hps, hvalues⟩ := Parameter.readAll_of_plain (s.length + 1) h
  obtain ⟨pairs, hpairs⟩ := Parameter.exists_resolve hvalues
  refine ⟨Parameter.shown pairs, ?_⟩
  rw [parametersShown, hps]
  simp only [bind, Except.bind, hpairs]
  rfl

/-! ## Fields -/

namespace Field

theorem looseShown_of_plain (h : IsPlain s) : ∃ shown, looseShown s = .ok shown := by
  have hrest := Token.suffix_upToSemicolon s
  unfold looseShown
  split
  · exact ⟨_, rfl⟩
  · rename_i semicolon r heq
    rw [heq] at hrest
    exact exists_map_eq_ok (parametersShown_of_plain
      (h.of_suffix ((List.suffix_cons semicolon r).trans hrest))) _

theorem tokenThen_of_plain {next : Glyphs → Except HeaderFault Glyphs} (h : IsPlain s)
    (hnext : ∀ r, IsPlain r → ∃ shown, next r = .ok shown) :
    ∃ shown, tokenThen next s = .ok shown := by
  unfold tokenThen
  split
  · exact looseShown_of_plain h
  · rename_i htoken
    exact exists_map_eq_ok (hnext _ (h.of_suffix (Token.leavesEnd_token _ _ _ htoken))) _

/-- **The field of the type.** -/
theorem mediaTypeShown_of_plain (h : IsPlain s) : ∃ shown, mediaTypeShown s = .ok shown := by
  refine exists_map_eq_ok (tokenThen_of_plain h fun r hr => ?_) _
  split
  · exact exists_map_eq_ok (tokenThen_of_plain (hr.of_suffix (List.suffix_cons _ _))
      fun _ => looseShown_of_plain) _
  · exact looseShown_of_plain hr

/-- No asterisks stand in the lines that can belong to a header. -/
def PlainLines (lines : List Octets) : Prop :=
  ∀ l ∈ lines, isHeaderLine l = true → 0x2A ∉ l

theorem isPlain_ofOctets {s : Octets} (h : 0x2A ∉ s) : IsPlain (Glyphs.ofOctets s) := by
  have hstar : ∀ k < 0x80, Char.ofNat k = '*' → k = 0x2A := by decide
  intro hmem
  obtain ⟨b, hb, heq⟩ := List.mem_map.1 hmem
  rw [Glyph.ofOctet] at heq
  split at heq
  · rename_i hascii
    have hnumber : b.toNat = (0x2A : UInt8).toNat :=
      hstar _ (UInt8.lt_iff_toNat_lt.1 hascii) (Glyph.char.inj heq)
    exact h (UInt8.toNat_inj.1 hnumber ▸ hb)
  · cases heq

theorem PlainLines.of_subset {lines part : List Octets} (h : PlainLines lines)
    (hpart : part ⊆ lines) : PlainLines part :=
  fun l hl => h l (hpart hl)

theorem plainLines_ofOctets {s : Octets} (h : 0x2A ∉ s) : PlainLines (Line.ofOctets s) :=
  fun _ hl _ hmem => h ((Line.infix_of_mem_ofOctets hl).subset hmem)

theorem isPlain_of_ofLines? {line : Octets} {more : List Octets} {f : Field} (hline : 0x2A ∉ line)
    (hmore : ∀ l ∈ more, 0x2A ∉ l) (h : ofLines? line more = some f) : IsPlain f.value := by
  unfold ofLines? at h
  split at h
  · cases h
  split at h
  · cases h
  · rename_i name rest _ hspan _
    cases h
    refine isPlain_ofOctets fun hmem => ?_
    rw [List.span_eq_takeWhile_dropWhile] at hspan
    have hrest : rest <:+ line := by
      rw [← (Prod.mk.inj hspan).2]
      exact List.dropWhile_suffix _
    -- the value is what stands behind the colon, and the continuations
    rcases List.mem_append.1 (List.mem_of_mem_filter hmem) with hvalue | hvalue
    · exact hline (hrest.subset ((List.drop_suffix 1 rest).subset
        ((List.dropWhile_suffix _).subset hvalue)))
    · obtain ⟨l, hl, hmem⟩ := List.mem_flatten.1 hvalue
      exact hmore l hl hmem

theorem mem_grouped (lines : List Octets) : (grouped lines).1 ⊆ lines ∧
    ∀ g ∈ (grouped lines).2, g.1 ∈ lines ∧ g.2 ⊆ lines := by
  induction lines with
  | nil => exact ⟨List.Subset.refl _, fun g hg => nomatch hg⟩
  | cons line r ih =>
    rw [grouped]
    generalize grouped r = found at ih
    obtain ⟨more, groups⟩ := found
    obtain ⟨hmore, hgroups⟩ := ih
    have hrest : ∀ g ∈ groups, g.1 ∈ line :: r ∧ g.2 ⊆ line :: r := fun g hg =>
      ⟨List.mem_cons_of_mem _ (hgroups g hg).1, List.subset_cons_of_subset _ (hgroups g hg).2⟩
    simp only
    split
    · exact ⟨List.cons_subset_cons _ hmore, hrest⟩
    · exact ⟨List.nil_subset _, List.forall_mem_cons.2
        ⟨⟨List.mem_cons_self, List.subset_cons_of_subset _ hmore⟩, hrest⟩⟩

/-- **The fields of a header.** -/
theorem isPlain_of_mem_ofHeader {lines : List Octets} (h : ∀ l ∈ lines, 0x2A ∉ l) {f : Field}
    (hf : f ∈ ofHeader lines) : IsPlain f.value := by
  obtain ⟨g, hg, hfield⟩ := List.mem_filterMap.1 hf
  obtain ⟨hline, hmore⟩ := (mem_grouped lines).2 g hg
  exact isPlain_of_ofLines? (h _ hline) (fun l hl => h l (hmore hl)) hfield

/-- Header and body are made of the lines. -/
theorem splitHeader_subset (lines : List Octets) :
    (splitHeader lines).1 ⊆ lines ∧ (splitHeader lines).2 ⊆ lines := by
  unfold splitHeader
  rw [List.span_eq_takeWhile_dropWhile]
  have hheader : lines.takeWhile isHeaderLine ⊆ lines := (List.takeWhile_prefix _).subset
  have hrest : lines.dropWhile isHeaderLine ⊆ lines := (List.dropWhile_suffix _).subset
  generalize lines.takeWhile isHeaderLine = header at hheader
  generalize lines.dropWhile isHeaderLine = rest at hrest
  dsimp -zeta only
  extract_lets body
  have hbody : body ⊆ lines := by
    refine List.Subset.trans ?_ hrest
    simp only [body]
    split
    · split
      · exact List.subset_cons_self _ _
      · exact List.Subset.refl _
    · exact List.Subset.refl _
  split
  · rename_i line hlast
    split
    · exact ⟨List.Subset.trans (List.dropLast_subset header) hheader,
        List.cons_subset.2 ⟨hheader (List.mem_of_getLast? hlast), hbody⟩⟩
    · exact ⟨hheader, hbody⟩
  · exact ⟨hheader, hbody⟩

/-- The lines of a header are such as can belong to one. -/
theorem isHeaderLine_of_mem_splitHeader {lines : List Octets} {l : Octets}
    (h : l ∈ (splitHeader lines).1) : isHeaderLine l = true := by
  have hheader : ∀ l ∈ lines.takeWhile isHeaderLine, isHeaderLine l = true :=
    List.all_eq_true.1 List.all_takeWhile
  unfold splitHeader at h
  rw [List.span_eq_takeWhile_dropWhile] at h
  dsimp -zeta only at h
  extract_lets body at h
  split at h
  · split at h
    · exact hheader l (List.mem_of_mem_dropLast h)
    · exact hheader l h
  · exact hheader l h

theorem PlainLines.not_mem_header {lines : List Octets} (h : PlainLines lines) :
    ∀ l ∈ (splitHeader lines).1, 0x2A ∉ l :=
  fun l hl => h l ((splitHeader_subset lines).1 hl) (isHeaderLine_of_mem_splitHeader hl)

theorem isPlain_of_find? {fields : List Field} (h : ∀ f ∈ fields, IsPlain f.value) {name : String}
    {value : Glyphs} (hvalue : find? fields name = some value) : IsPlain value := by
  obtain ⟨f, hf, rfl⟩ := Option.map_eq_some_iff.1 hvalue
  exact h f (List.mem_of_find?_eq_some hf)

end Field

/-! ## Entities -/

namespace Entity

/-- The fields of an entity hold no asterisks. -/
def PlainFields (e : Entity) : Prop :=
  ∀ f ∈ e.fields, IsPlain f.value

theorem fields_withoutEnd (e : Entity) : e.withoutEnd.fields = e.fields := by
  match e with
  | .mk _ _ (.text _) => rfl
  | .mk _ _ (.parts _) => rfl

theorem exists_typeOf {fields : List Field} (h : ∀ f ∈ fields, IsPlain f.value)
    (default : MediaType) : ∃ type, typeOf fields default = .ok type := by
  unfold typeOf
  split
  · exact ⟨default, rfl⟩
  · rename_i hvalue
    exact exists_map_eq_ok (Field.mediaTypeShown_of_plain (Field.isPlain_of_find? h hvalue)) _

theorem exists_boundaryOf {fields : List Field} (h : ∀ f ∈ fields, IsPlain f.value) :
    ∃ boundary, boundaryOf fields = .ok boundary := by
  unfold boundaryOf
  split
  · exact ⟨none, rfl⟩
  · rename_i hvalue
    exact exists_map_eq_ok (Field.mediaTypeShown_of_plain (Field.isPlain_of_find? h hvalue)) _

/-- Groups are made of the lines between delimiters. -/
theorem subset_of_mem_groupsFrom {kind : Octets → Option Line.Delimiter} (fuel : Nat) :
    ∀ {lines g}, g ∈ groupsFrom kind fuel lines → g ⊆ lines := by
  induction fuel with
  | zero => exact fun h => nomatch h
  | succ fuel ih =>
    intro lines g h
    cases lines with
    | nil => cases h
    | cons line r =>
      rw [groupsFrom] at h
      split at h
      · cases h
      have hdrop : r.dropWhile (fun l => (kind l).isSome) ⊆ line :: r :=
        List.Subset.trans (List.dropWhile_suffix _).subset (List.subset_cons_self _ _)
      rw [List.span_eq_takeWhile_dropWhile] at h
      rcases List.mem_cons.1 h with rfl | h
      · exact List.Subset.trans (List.takeWhile_prefix _).subset hdrop
      · exact List.Subset.trans (ih h) (List.Subset.trans (List.dropWhile_suffix _).subset hdrop)

theorem subset_of_mem_groups {boundary : List Char} {body : List Octets}
    {groups : List (List Octets)} (h : Entity.groups boundary body = .inr groups) :
    ∀ g ∈ groups, g ⊆ body := by
  have hrest : body.dropWhile (fun l => (Line.delimiter? boundary l).isNone) ⊆ body :=
    (List.dropWhile_suffix _).subset
  simp only [Entity.groups, List.span_eq_takeWhile_dropWhile] at h
  split at h
  · rename_i heq
    split at h
    · cases h
      exact fun g hg => List.Subset.trans (subset_of_mem_groupsFrom _ hg) hrest
    · cases h
  · cases h

theorem subset_of_mem_blocks (fuel : Nat) : ∀ {lines block}, block ∈ blocks fuel lines →
    block ⊆ lines := by
  induction fuel with
  | zero =>
    intro lines block h
    rw [List.mem_singleton.1 h]
    exact List.nil_subset _
  | succ fuel ih =>
    intro lines block h
    have hblock : lines.takeWhile (fun l => !Line.isEmpty l) ⊆ lines :=
      (List.takeWhile_prefix _).subset
    have hrest : lines.dropWhile (fun l => !Line.isEmpty l) ⊆ lines :=
      (List.dropWhile_suffix _).subset
    rw [blocks, List.span_eq_takeWhile_dropWhile] at h
    simp only at h
    split at h
    · rename_i empty line r heq
      rw [heq] at hrest
      rcases List.mem_cons.1 h with rfl | h
      · exact hblock
      · exact List.Subset.trans (ih h) (List.Subset.trans (List.subset_cons_self _ _) hrest)
    · rw [List.mem_singleton.1 h]
      exact hblock

/-- Neither the fields of an entity nor those of its parts hold an asterisk. -/
structure Plain (e : Entity) : Prop where
  fields : e.PlainFields
  parts : ∀ {entities}, e.content = .parts entities → ∀ x ∈ entities, x.PlainFields

theorem plain_text {fields : List Field} (h : ∀ f ∈ fields, IsPlain f.value) (type : MediaType)
    (s : Octets) : Plain (mk fields type (.text s)) where
  fields := h
  parts := by
    intro entities heq
    cases heq

theorem plain_parts {fields : List Field} (h : ∀ f ∈ fields, IsPlain f.value) (type : MediaType)
    {entities : List Entity} (hentities : ∀ x ∈ entities, x.PlainFields) :
    Plain (mk fields type (.parts entities)) where
  fields := h
  parts := by
    intro entities' heq
    cases heq
    exact hentities

/-- **Lines without asterisks in headers make an entity**, whatever else they are. The induction is
on the depth of entities within entities. -/
theorem read_of_plain (fuel : Nat) : ∀ (default : MediaType) {lines : List Octets},
    Field.PlainLines lines → ∃ e, read fuel default lines = .ok e ∧ e.Plain := by
  induction fuel with
  | zero => exact fun _ _ _ => ⟨_, rfl, plain_text (List.forall_mem_nil _) _ _⟩
  | succ fuel ih =>
    intro default lines h
    obtain ⟨-, hbody⟩ := Field.splitHeader_subset lines
    have hfields : ∀ f ∈ Field.ofHeader (Field.splitHeader lines).1, IsPlain f.value :=
      fun f hf => Field.isPlain_of_mem_ofHeader h.not_mem_header hf
    -- every part is made of lines of the body
    have hparts : ∀ (default : MediaType) {groups : List (List Octets)},
        (∀ g ∈ groups, g ⊆ (Field.splitHeader lines).2) →
          ∃ es, groups.mapM (read fuel default) = .ok es ∧ ∀ e ∈ es, e.Plain :=
      fun default {_} hgroups => exists_mapM_eq_ok fun g hg =>
        ih default (h.of_subset (List.Subset.trans (hgroups g hg) hbody))
    obtain ⟨type, htype⟩ := exists_typeOf hfields default
    obtain ⟨boundary, hboundary⟩ := exists_boundaryOf hfields
    rw [read]
    simp only [htype, hboundary, bind, Except.bind]
    split
    · obtain ⟨es, hes, hplain⟩ := hparts .plainText fun g
        (hg : g ∈ blocks (Field.splitHeader lines).2.length (Field.splitHeader lines).2) =>
          subset_of_mem_blocks _ hg
      simp only [hes]
      exact ⟨_, rfl, plain_parts hfields _ fun e he => (hplain e he).fields⟩
    split
    · obtain ⟨e, he, hplain⟩ := ih .plainText (h.of_subset hbody)
      simp only [he]
      exact ⟨_, rfl, plain_parts hfields _ (List.forall_mem_singleton.2 hplain.fields)⟩
    split
    · cases boundary with
      | none => exact ⟨_, rfl, plain_text hfields _ _⟩
      | some boundary =>
        simp only
        split
        · exact ⟨_, rfl, plain_text hfields _ _⟩
        · rename_i groups hgroups
          obtain ⟨es, hes, hplain⟩ := hparts (if type = .digest then .message else .plainText)
            (subset_of_mem_groups hgroups)
          simp only [hes]
          refine ⟨_, rfl, plain_parts hfields _ fun x hx => ?_⟩
          obtain ⟨e, he, rfl⟩ := List.mem_map.1 hx
          rw [PlainFields, fields_withoutEnd]
          exact (hplain e he).fields
    · exact ⟨_, rfl, plain_text hfields _ _⟩

end Entity

end Dataspace.Mime
