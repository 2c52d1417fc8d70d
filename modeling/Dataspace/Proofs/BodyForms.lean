import Dataspace.Contract.Examination
import Dataspace.Proofs.JsonFragment
import Dataspace.Proofs.Utf8

/-!
# Bodies as text and as octets

An agreement comes as a text or as the octets of one, and both forms are read by the same reader
once the octets are decoded. Only the test for a body without content differs: a text may consist of
any blanks, octets of the six in ASCII. A text of other blanks is therefore handed to the reader in
one form and not in the other. The reader refuses it, since no value of JSON begins with a blank,
and so the two forms are still judged alike.

* **`Received.isBlank_text_of_octets`** — what is blank as octets is blank as text.
* **`Contract.readPayload_utf8`** — the readers of the two forms agree.
* **`Json.read_blank`** — the reader refuses a text of blanks, whichever they are.
* **`forms_judged_alike`** — both forms of a body are judged alike.
-/

namespace Dataspace

/-! ## Blanks as octets -/

namespace Text

theorem isBlankOctet_iff {b : UInt8} :
    isBlankOctet b = true ↔ b.toNat = 0x20 ∨ 0x09 ≤ b.toNat ∧ b.toNat ≤ 0x0D := by
  simp only [isBlankOctet, Bool.or_eq_true, Bool.and_eq_true, beq_iff_eq, decide_eq_true_eq,
    UInt8.le_iff_toNat_le, ← UInt8.toNat_inj]
  rfl

/-- The characters whose numbers are those of blank octets are blank. -/
theorem isBlank_of_toNat {c : Char} (h : c.toNat = 0x20 ∨ 0x09 ≤ c.toNat ∧ c.toNat ≤ 0x0D) :
    isBlank c = true := by
  have hspace : isWhiteSpace c = true := by
    simp only [isWhiteSpace, Bool.or_eq_true, Bool.and_eq_true, beq_iff_eq, decide_eq_true_eq]
    omega
  rw [isBlank, hspace, Bool.true_or]

/-- Outside ASCII the first octet of a character is not blank, and within it the octet has the
number of the character. -/
theorem isBlank_of_encodeChar {c : Char} (h : ∀ b ∈ Utf8.encodeChar c, isBlankOctet b = true) :
    isBlank c = true := by
  have hscalar := toNat_scalar c
  have hfirst : ∀ {n : Nat} {more : Octets}, Utf8.encodeChar c = n.toUInt8 :: more → n < 0x100 →
      n = 0x20 ∨ 0x09 ≤ n ∧ n ≤ 0x0D := by
    intro n more hencode hn
    have hblank := isBlankOctet_iff.1 (h n.toUInt8 (hencode ▸ List.mem_cons_self))
    rwa [Nat.toUInt8_eq, UInt8.toNat_ofNat', Nat.mod_eq_of_lt hn] at hblank
  by_cases hascii : c.toNat < 0x80
  · exact isBlank_of_toNat (hfirst (if_pos hascii) (by omega))
  · exfalso
    unfold Utf8.encodeChar at hfirst
    simp only [if_neg hascii] at hfirst
    split at hfirst
    · have := hfirst rfl (by omega)
      omega
    split at hfirst
    · have := hfirst rfl (by omega)
      omega
    · have := hfirst rfl (by omega)
      omega

end Text

/-- **What is blank as octets is blank as text.** -/
theorem Received.isBlank_text_of_octets {s : String}
    (h : (Received.octets (Text.utf8 s)).isBlank = true) : (Received.text s).isBlank = true := by
  simp only [Received.isBlank, List.all_eq_true] at h ⊢
  intro c hc
  exact Text.isBlank_of_encodeChar fun b hb => h b (List.mem_flatMap.2 ⟨c, hc, hb⟩)

/-! ## Blanks and the reader of JSON -/

namespace Json

variable {d : Dialect} {c : Char}

theorem afterWord_blank (hc : Text.isBlank c = true) {w : String × Json} (hw : w ∈ words)
    (r : List Char) : afterWord w.1 (c :: r) = none := by
  have hwords : ∀ w ∈ words, w.1.toList.head?.any (fun x => !Text.isBlank x) = true := by decide
  have hfirst := hwords w hw
  refine if_neg fun hprefix => ?_
  cases hword : w.1.toList with
  | nil =>
    rw [hword] at hfirst
    cases hfirst
  | cons x xs =>
    rw [hword] at hfirst hprefix
    obtain ⟨rfl, -⟩ := List.cons_prefix_cons.1 (List.isPrefixOf_iff_prefix.1 hprefix)
    simp only [List.head?_cons, Option.any_some, hc] at hfirst
    cases hfirst

theorem ne_of_isBlank (hc : Text.isBlank c = true) {x : Char} (hx : Text.isBlank x = false) :
    c ≠ x := by
  rintro rfl
  rw [hc] at hx
  cases hx

theorem wholePart_blank (hc : Text.isBlank c = true) (r : List Char) :
    wholePart (c :: r) = none := by
  have hzero : c ≠ '0' := ne_of_isBlank hc (by decide)
  have hdigit : isDigit c = false := by
    by_contra hdigit
    simp only [isDigit, Bool.not_eq_false, Bool.and_eq_true, decide_eq_true_eq] at hdigit
    simp only [Text.isBlank, Text.isWhiteSpace, Bool.or_eq_true, Bool.and_eq_true, beq_iff_eq,
      decide_eq_true_eq] at hc
    omega
  unfold wholePart
  split
  · rename_i hhead
    exact absurd (List.cons.inj hhead).1 hzero
  · rw [List.takeWhile_cons, hdigit]
    rfl

/-- No word, no sign and no digit is blank. -/
theorem atom_blank (hc : Text.isBlank c = true) (r : List Char) :
    atom d (c :: r) = .error ⟨.value, c :: r⟩ := by
  unfold atom
  split
  · rename_i found hfound
    obtain ⟨w, hw, hword⟩ := List.exists_of_findSome?_eq_some hfound
    obtain ⟨rest, hrest, -⟩ := Option.map_eq_some_iff.1 hword
    rw [afterWord_blank hc hw] at hrest
    cases hrest
  · split
    · rename_i hsign
      exact absurd (List.cons.inj hsign).1 (ne_of_isBlank hc (by decide))
    · rw [unsigned, wholePart_blank hc]

theorem value_blank (hc : Text.isBlank c = true) (fuel : Nat) (depth : Option Nat)
    (r : List Char) : value d fuel depth (c :: r) = .error ⟨.value, c :: r⟩ := by
  cases fuel with
  | zero => rfl
  | succ fuel =>
    rw [value.eq_def]
    simp only
    split
    · rename_i hhead
      exact absurd (List.cons.inj hhead).1 (ne_of_isBlank hc (by decide))
    · rename_i hhead
      exact absurd (List.cons.inj hhead).1 (ne_of_isBlank hc (by decide))
    · rename_i hhead
      exact absurd (List.cons.inj hhead).1 (ne_of_isBlank hc (by decide))
    · exact atom_blank hc r

/-- **A text of blanks is no JSON**: past the blanks of JSON there is nothing, or a blank of another
kind. -/
theorem read_blank {s : List Char} (h : ∀ c ∈ s, Text.isBlank c = true) :
    ∃ f, read d s = .error f := by
  have hsuffix : skipBlanks s <:+ s := suffix_skipBlanks s
  have hvalue : ∃ f, value d (fuelFor s) d.depth (skipBlanks s) = .error f := by
    cases hs : skipBlanks s with
    | nil =>
      have hnil : Refused (value d (fuelFor s) d.depth []) := refused_value_nil (fuelFor s)
      obtain ⟨f, hf, -⟩ := hnil
      exact ⟨f, hf⟩
    | cons c r =>
      have hc : c ∈ s := hsuffix.subset (hs ▸ List.mem_cons_self)
      exact ⟨_, value_blank (h c hc) _ _ r⟩
  obtain ⟨f, hf⟩ := hvalue
  exact ⟨f, by rw [read, hf]⟩

end Json

/-! ## The two forms -/

namespace Contract

/-- **The readers of the two forms agree.** -/
theorem readPayload_utf8 (role : Role) (s : String) :
    readPayload role (.octets (Text.utf8 s)) = readPayload role (.text s) := by
  rw [readPayload, readPayload, checkOctets, Text.utf8, Text.Utf8.decode_encode]

theorem readPayload_blank {s : String} (h : (Received.text s).isBlank = true) (role : Role) :
    ∃ report, readPayload role (.text s) = .error report := by
  obtain ⟨f, hf⟩ := Json.read_blank (d := .document) (List.all_eq_true.1 h)
  exact ⟨_, by rw [readPayload, checkDocument, hf]⟩

/-- Both forms of a body hold the same agreement, or neither holds one. What is said of a body that
holds none may differ. -/
theorem readAgreement_forms (s : String) :
    (∃ agreement, readAgreement (some (.text s)) = .ok agreement ∧
      readAgreement (some (.octets (Text.utf8 s))) = .ok agreement) ∨
    ∃ flaw flaw', readAgreement (some (.text s)) = .error flaw ∧
      readAgreement (some (.octets (Text.utf8 s))) = .error flaw' := by
  have hempty : ∀ body, body.isBlank = true → readAgreement (some body) = .error .empty :=
    fun body h => if_pos h
  have hread : ∀ body, body.isBlank = false →
      readAgreement (some body) = (readPayload .agreement body).mapError .invalid :=
    fun body h => if_neg (Bool.eq_false_iff.1 h)
  cases hoctets : (Received.octets (Text.utf8 s)).isBlank with
  | true =>
    exact .inr ⟨_, _, hempty _ (Received.isBlank_text_of_octets hoctets), hempty _ hoctets⟩
  | false =>
    rw [hread _ hoctets, readPayload_utf8]
    cases hblank : (Received.text s).isBlank with
    | true =>
      -- only the octets come to the reader, which refuses them
      obtain ⟨report, hreport⟩ := readPayload_blank hblank .agreement
      exact .inr ⟨_, _, hempty _ hblank, by rw [hreport]; rfl⟩
    | false =>
      rw [hread _ hblank]
      cases readPayload .agreement (.text s) with
      | ok agreement => exact .inl ⟨agreement, rfl, rfl⟩
      | error report => exact .inr ⟨_, _, rfl, rfl⟩

end Contract

/-- **Results of the same kind**: the same agreement, the same respects in which it fails the
request, or no agreement. -/
inductive Examiner.Alike : (x y : Except Error Contract) → Prop
  | accepted (agreement : Contract) : Alike (.ok agreement) (.ok agreement)
  | mismatched (texts : List String) : Alike (.error (.mismatch texts)) (.error (.mismatch texts))
  | malformed {e e' : Error} (h : e.family = .malformedAgreement)
    (h' : e'.family = .malformedAgreement) : Alike (.error e) (.error e')

/-- An examiner looks at nothing but the agreement in a body. -/
theorem Examiner.alike_of_readAgreement {body body' : Option Received}
    (h : (∃ agreement, Contract.readAgreement body = .ok agreement ∧
        Contract.readAgreement body' = .ok agreement) ∨
      ∃ flaw flaw', Contract.readAgreement body = .error flaw ∧
        Contract.readAgreement body' = .error flaw')
    (x : Examiner) (request : Contract) :
    Alike (x.examine body request).1 (x.examine body' request).1 := by
  unfold examine
  rcases h with ⟨agreement, h, h'⟩ | ⟨flaw, flaw', h, h'⟩
  · rw [h, h']
    cases hcompare : x.compare agreement request with
    | nil =>
      simp only [hcompare]
      exact .accepted agreement
    | cons text texts =>
      simp only [hcompare]
      exact .mismatched (text :: texts)
  · rw [h, h']
    exact .malformed rfl rfl

/-- **Both forms of a body are judged alike.** Of every text and its octets, the same agreement is
read, or both are refused as malformed; and whatever examiner holds them against whatever request,
the same agreement passes, the same respects are found in which it fails, or both are refused as
malformed. -/
theorem forms_judged_alike (s : String) :
    ((∃ agreement, Contract.readAgreement (some (.text s)) = .ok agreement ∧
        Contract.readAgreement (some (.octets (Text.utf8 s))) = .ok agreement) ∨
      ∃ flaw flaw', Contract.readAgreement (some (.text s)) = .error flaw ∧
        Contract.readAgreement (some (.octets (Text.utf8 s))) = .error flaw' ∧
        (Error.agreement flaw).family = .malformedAgreement ∧
        (Error.agreement flaw').family = .malformedAgreement) ∧
    ∀ (x : Examiner) (request : Contract),
      Examiner.Alike (x.examine (some (.text s)) request).1
        (x.examine (some (.octets (Text.utf8 s))) request).1 := by
  have hforms := Contract.readAgreement_forms s
  refine ⟨hforms.imp_right ?_, Examiner.alike_of_readAgreement hforms⟩
  rintro ⟨flaw, flaw', h, h'⟩
  exact ⟨flaw, flaw', h, h', rfl, rfl⟩

/-- A no-break space is blank as a text, and no JSON as octets. -/
example :
    Contract.readAgreement (some (.text "\u00a0")) = .error .empty ∧
      Contract.readAgreement (some (.octets (Text.utf8 "\u00a0"))) =
        .error (.invalid ⟨Role.title .agreement, [⟨.notJson, []⟩]⟩) := by
  decide +kernel

end Dataspace
