import Dataspace.Message.Text
import Dataspace.Proofs.Utf8

/-!
# One spelling for each text

An encoding gives a text octets, and reads octets as a text. Where both can be done they undo each
other, whichever is done first: no two texts have the same octets, and octets that are read at all
are the ones that the text is written with. For UTF-8 the second half rests on what the reader
refuses. Of the octets that have the shape of a character, those of a longer form than needed, of
half a two-unit character or of a number beyond the last one are all ruled out by the bounds on the
second octet, so that what is left is the spelling that the writer gives.

* **`Utf8.encodeChar_of_step`** — one character that was read, and its octets.
* **`Utf8.encode_of_decode`** — a whole text.
* **`OneOctet.encodeFrom_of_decodeFrom`**, **`decodeFrom_of_encodeFrom`** — the same for encodings
  with one octet to a character.
* **`Charset.decode_eq_ok_iff`** — reading undoes writing and writing undoes reading.
* **`Received.carried_unchanged`** — no body is changed by being carried in its other form.
-/

namespace Dataspace

namespace Text

namespace Utf8

/-! ## First octets -/

/-- What an octet announces, by its number. -/
theorem lead_cases (b : UInt8) :
    (∃ k < 0x80, b = Nat.toUInt8 k) ∨ (∃ k < 32, 2 ≤ k ∧ b = Nat.toUInt8 (0xC0 + k)) ∨
      (∃ k < 16, b = Nat.toUInt8 (0xE0 + k)) ∨ (∃ k < 5, b = Nat.toUInt8 (0xF0 + k)) ∨
      lead b = .none := by
  have hb : ∀ n, b.toNat = n → b = Nat.toUInt8 n := by
    rintro n rfl
    rw [Nat.toUInt8_eq, UInt8.ofNat_toNat]
  have hsize := b.toNat_lt
  by_cases hone : b.toNat < 0x80
  · exact .inl ⟨b.toNat, hone, hb _ rfl⟩
  by_cases htwo : 0xC2 ≤ b.toNat ∧ b.toNat < 0xE0
  · exact .inr (.inl ⟨b.toNat - 0xC0, by omega, by omega, hb _ (by omega)⟩)
  by_cases hthree : 0xE0 ≤ b.toNat ∧ b.toNat < 0xF0
  · exact .inr (.inr (.inl ⟨b.toNat - 0xE0, by omega, hb _ (by omega)⟩))
  by_cases hfour : 0xF0 ≤ b.toNat ∧ b.toNat < 0xF5
  · exact .inr (.inr (.inr (.inl ⟨b.toNat - 0xF0, by omega, hb _ (by omega)⟩)))
  -- what is left are continuations, the two octets below the first of two, and the highest ones
  · refine .inr (.inr (.inr (.inr ?_)))
    simp only [lead, UInt8.lt_iff_toNat_lt, UInt8.reduceToNat]
    rw [if_neg hone]
    split
    · rfl
    · rw [if_neg (by omega), if_neg (by omega), if_neg (by omega)]

/-! ## Further octets -/

theorem exists_continuation {b : UInt8} (hlow : 0x80 ≤ b.toNat) (hhigh : b.toNat ≤ 0xBF) :
    ∃ k < 64, b = Nat.toUInt8 (0x80 + k) := by
  refine ⟨b.toNat - 0x80, by omega, ?_⟩
  rw [Nat.add_sub_cancel' hlow, Nat.toUInt8_eq, UInt8.ofNat_toNat]

/-- An octet more that was read adds six binary digits to the code. -/
theorem exists_of_continuations {count seen bits code : Nat} {s rest : Octets}
    (h : continuations (count + 1) seen bits s = .ok (code, rest)) :
    ∃ k < 64, ∃ r, s = Nat.toUInt8 (0x80 + k) :: r ∧
      continuations count (seen + 1) (bits * 64 + k) r = .ok (code, rest) := by
  cases s with
  | nil => cases h
  | cons b r =>
    rw [continuations] at h
    split at h
    · rename_i hb
      simp only [isContinuation, Bool.and_eq_true, decide_eq_true_eq, UInt8.le_iff_toNat_le,
        UInt8.lt_iff_toNat_lt, UInt8.reduceToNat] at hb
      obtain ⟨k, hk, rfl⟩ := exists_continuation hb.1 (by omega)
      rw [toNat_continuation hk, Nat.add_sub_cancel_left] at h
      exact ⟨k, hk, r, rfl, h⟩
    · cases h

/-- A character of several octets that was read: its second octet lies within the bounds. -/
theorem exists_of_step_multi {b : UInt8} {bits count : Nat} {low high : UInt8} {r rest : Octets}
    {c : Char} (hlead : lead b = .multi bits (count + 1) low high) (hlow : 0x80 ≤ low.toNat)
    (hhigh : high.toNat ≤ 0xBF) (h : step b r = .ok (c, rest)) :
    ∃ k < 64, ∃ r₂ code, r = Nat.toUInt8 (0x80 + k) :: r₂ ∧ low.toNat ≤ 0x80 + k ∧
      0x80 + k ≤ high.toNat ∧ continuations count 2 (bits * 64 + k) r₂ = .ok (code, rest) ∧
      c = Char.ofNat code := by
  rw [step, hlead] at h
  cases r with
  | nil => cases h
  | cons b₂ r₂ =>
    simp only at h
    split at h
    · rename_i hb
      simp only [Bool.and_eq_true, decide_eq_true_eq, UInt8.le_iff_toNat_le] at hb
      obtain ⟨k, hk, rfl⟩ := exists_continuation (Nat.le_trans hlow hb.1) (Nat.le_trans hb.2 hhigh)
      rw [toNat_continuation hk] at h hb
      rw [Nat.add_sub_cancel_left, Nat.add_sub_cancel] at h
      obtain ⟨⟨code, rest'⟩, hcode, heq⟩ := map_eq_ok h
      obtain ⟨rfl, rfl⟩ := Prod.mk.inj heq
      exact ⟨k, hk, r₂, code, rfl, hb.1, hb.2, hcode, rfl⟩
    · cases h

/-! ## Characters and texts -/

/-- A character by its number. -/
theorem toNat_ofNat {n : Nat} (h : n < 0xD800 ∨ 0xDFFF < n ∧ n < 0x110000) :
    (Char.ofNat n).toNat = n := by
  have hvalid : n.isValidChar := h
  rw [Char.ofNat, dif_pos hvalid]
  rfl

section Spelling

variable {k k₂ k₃ k₄ : Nat}

theorem encodeChar_two (hmin : 2 ≤ k) (hk : k < 32) (hk₂ : k₂ < 64) :
    encodeChar (Char.ofNat (k * 64 + k₂)) =
      [Nat.toUInt8 (0xC0 + k), Nat.toUInt8 (0x80 + k₂)] := by
  have hcode : (k * 64 + k₂) / 64 = k ∧ (k * 64 + k₂) % 64 = k₂ := by omega
  rw [encodeChar, toNat_ofNat (by omega)]
  rw [if_neg (by omega), if_pos (by omega), hcode.1, hcode.2]

theorem encodeChar_three (hk : k < 16) (hk₂ : k₂ < 64) (hk₃ : k₃ < 64) (hmin : k = 0 → 32 ≤ k₂)
    (hmax : k = 13 → k₂ < 32) :
    encodeChar (Char.ofNat ((k * 64 + k₂) * 64 + k₃)) =
      [Nat.toUInt8 (0xE0 + k), Nat.toUInt8 (0x80 + k₂), Nat.toUInt8 (0x80 + k₃)] := by
  have hcode : ((k * 64 + k₂) * 64 + k₃) / 4096 = k ∧
      ((k * 64 + k₂) * 64 + k₃) / 64 % 64 = k₂ ∧ ((k * 64 + k₂) * 64 + k₃) % 64 = k₃ := by omega
  -- the number is none of the halves of two-unit characters, which begin at 13 and 32
  rw [encodeChar, toNat_ofNat (by omega)]
  rw [if_neg (by omega), if_neg (by omega), if_pos (by omega), hcode.1, hcode.2.1, hcode.2.2]

theorem encodeChar_four (hk : k < 5) (hk₂ : k₂ < 64) (hk₃ : k₃ < 64) (hk₄ : k₄ < 64)
    (hmin : k = 0 → 16 ≤ k₂) (hmax : k = 4 → k₂ < 16) :
    encodeChar (Char.ofNat (((k * 64 + k₂) * 64 + k₃) * 64 + k₄)) =
      [Nat.toUInt8 (0xF0 + k), Nat.toUInt8 (0x80 + k₂), Nat.toUInt8 (0x80 + k₃),
        Nat.toUInt8 (0x80 + k₄)] := by
  have hcode : (((k * 64 + k₂) * 64 + k₃) * 64 + k₄) / 262144 = k ∧
      (((k * 64 + k₂) * 64 + k₃) * 64 + k₄) / 4096 % 64 = k₂ ∧
      (((k * 64 + k₂) * 64 + k₃) * 64 + k₄) / 64 % 64 = k₃ ∧
      (((k * 64 + k₂) * 64 + k₃) * 64 + k₄) % 64 = k₄ := by omega
  rw [encodeChar, toNat_ofNat (by omega)]
  rw [if_neg (by omega), if_neg (by omega), if_neg (by omega), hcode.1, hcode.2.1, hcode.2.2.1,
    hcode.2.2.2]

end Spelling

/-- **One character that was read** stands in front with the octets that it is written with. -/
theorem encodeChar_of_step {b : UInt8} {r rest : Octets} {c : Char}
    (h : step b r = .ok (c, rest)) : b :: r = encodeChar c ++ rest := by
  rcases lead_cases b with ⟨k, hk, rfl⟩ | ⟨k, hk, hmin, rfl⟩ | ⟨k, hk, rfl⟩ | ⟨k, hk, rfl⟩ | hnone
  · rw [step, lead_one k hk] at h
    obtain ⟨rfl, rfl⟩ := Prod.mk.inj (Except.ok.inj h)
    rw [encodeChar, toNat_ofNat (.inl (by omega)), if_pos hk]
    rfl
  · obtain ⟨k₂, hk₂, r₂, code, rfl, -, -, hcode, rfl⟩ :=
      exists_of_step_multi (lead_two k hk hmin) (by decide) (by decide) h
    obtain ⟨rfl, rfl⟩ := Prod.mk.inj (Except.ok.inj hcode)
    rw [encodeChar_two hmin hk hk₂]
    rfl
  · obtain ⟨k₂, hk₂, r₂, code, rfl, hlow, hhigh, hcode, rfl⟩ :=
      exists_of_step_multi (lead_three k hk) (by split <;> decide) (by split <;> decide) h
    obtain ⟨k₃, hk₃, r₃, rfl, hend⟩ := exists_of_continuations hcode
    obtain ⟨rfl, rfl⟩ := Prod.mk.inj (Except.ok.inj hend)
    have hmin : k = 0 → 32 ≤ k₂ := by
      rintro rfl
      exact Nat.le_of_add_le_add_left hlow
    have hmax : k = 13 → k₂ < 32 := by
      rintro rfl
      exact Nat.lt_of_add_lt_add_left (Nat.lt_succ_of_le hhigh)
    rw [encodeChar_three hk hk₂ hk₃ hmin hmax]
    rfl
  · obtain ⟨k₂, hk₂, r₂, code, rfl, hlow, hhigh, hcode, rfl⟩ :=
      exists_of_step_multi (lead_four k hk) (by split <;> decide) (by split <;> decide) h
    obtain ⟨k₃, hk₃, r₃, rfl, hmore⟩ := exists_of_continuations hcode
    obtain ⟨k₄, hk₄, r₄, rfl, hend⟩ := exists_of_continuations hmore
    obtain ⟨rfl, rfl⟩ := Prod.mk.inj (Except.ok.inj hend)
    have hmin : k = 0 → 16 ≤ k₂ := by
      rintro rfl
      exact Nat.le_of_add_le_add_left hlow
    have hmax : k = 4 → k₂ < 16 := by
      rintro rfl
      exact Nat.lt_of_add_lt_add_left (Nat.lt_succ_of_le hhigh)
    rw [encodeChar_four hk hk₂ hk₃ hk₄ hmin hmax]
    rfl
  · rw [step, hnone] at h
    cases h

theorem encode_of_decodeFrom {cs : List Char} :
    ∀ {fuel position : Nat} {s : Octets}, s.length ≤ fuel →
      decodeFrom fuel position s = .ok cs → encode cs = s := by
  intro fuel
  induction fuel generalizing cs with
  | zero =>
    intro position s hfuel h
    obtain rfl := List.length_eq_zero_iff.1 (Nat.le_zero.1 hfuel)
    cases h
    rfl
  | succ fuel ih =>
    intro position s hfuel h
    cases s with
    | nil =>
      cases h
      rfl
    | cons b r =>
      rw [decodeFrom] at h
      split at h
      · cases h
      · rename_i c rest hstep
        obtain ⟨cs', hrest, rfl⟩ := map_eq_ok h
        have hfront : b :: r = encodeChar c ++ rest := encodeChar_of_step hstep
        -- the character took at least one octet, so the rest is shorter
        obtain ⟨b', more, hchar, -⟩ := step_encodeChar c rest
        have hshorter : rest.length ≤ fuel := by
          have hlength := congrArg List.length hfront
          rw [hchar] at hlength
          simp only [List.length_cons, List.length_append] at hlength hfuel
          omega
        rw [hfront, ← ih hshorter hrest]
        rfl

/-- **A text that was read** is written with the octets that it was read from. -/
theorem encode_of_decode {s : Octets} {cs : List Char} (h : decode s = .ok cs) : encode cs = s :=
  encode_of_decodeFrom (Nat.le_refl _) h

end Utf8

/-! ## One octet to a character -/

namespace OneOctet

variable {charset : Charset}

theorem limit_le (charset : Charset) : charset.limit ≤ 256 := by
  cases charset <;> decide

theorem encodeFrom_of_decodeFrom {s : Octets} :
    ∀ {cs : List Char} {position : Nat} (other : Nat), decodeFrom charset position s = .ok cs →
      encodeFrom charset other cs = .ok s := by
  induction s with
  | nil =>
    intro cs position other h
    cases h
    rfl
  | cons b r ih =>
    intro cs position other h
    rw [decodeFrom] at h
    split at h
    · rename_i hb
      obtain ⟨cs', hrest, rfl⟩ := map_eq_ok h
      have hnumber : (Char.ofNat b.toNat).toNat = b.toNat := by
        refine Utf8.toNat_ofNat (.inl ?_)
        have := b.toNat_lt
        omega
      rw [encodeFrom, hnumber, if_pos hb, ih _ hrest]
      rw [Nat.toUInt8_eq, UInt8.ofNat_toNat]
      rfl
    · cases h

theorem decodeFrom_of_encodeFrom {cs : List Char} :
    ∀ {s : Octets} {position : Nat} (other : Nat), encodeFrom charset position cs = .ok s →
      decodeFrom charset other s = .ok cs := by
  induction cs with
  | nil =>
    intro s position other h
    cases h
    rfl
  | cons c cs ih =>
    intro s position other h
    rw [encodeFrom] at h
    split at h
    · rename_i hc
      obtain ⟨r, hrest, rfl⟩ := map_eq_ok h
      have hnumber : (c.toNat.toUInt8).toNat = c.toNat := by
        rw [Nat.toUInt8_eq, UInt8.toNat_ofNat']
        exact Nat.mod_eq_of_lt (Nat.lt_of_lt_of_le hc (limit_le charset))
      rw [decodeFrom, hnumber, if_pos hc, ih _ hrest, Char.ofNat_toNat]
      rfl
    · cases h

/-- Just the texts whose characters all have an octet can be written. -/
theorem exists_encodeFrom_iff {cs : List Char} (position : Nat) :
    (∃ s, encodeFrom charset position cs = .ok s) ↔ ∀ c ∈ cs, c.toNat < charset.limit := by
  induction cs generalizing position with
  | nil => exact ⟨fun _ _ hc => (nomatch hc), fun _ => ⟨[], rfl⟩⟩
  | cons c cs ih =>
    rw [List.forall_mem_cons, ← ih (position + 1), encodeFrom]
    split
    · rename_i hc
      constructor
      · rintro ⟨s, h⟩
        obtain ⟨r, hrest, -⟩ := map_eq_ok h
        exact ⟨hc, r, hrest⟩
      · rintro ⟨-, hrest⟩
        exact exists_map_eq_ok hrest _
    · rename_i hc
      constructor
      · rintro ⟨s, h⟩
        cases h
      · rintro ⟨hc', -⟩
        exact absurd hc' hc

end OneOctet

/-! ## Encodings -/

namespace Charset

/-- Whether an encoding has every character of a text. -/
def Covers (charset : Charset) (s : String) : Prop :=
  charset = utf8 ∨ ∀ c ∈ s.toList, c.toNat < charset.limit

theorem ofName?_name (charset : Charset) : ofName? charset.name = some charset := by
  cases charset <;> decide

/-- What is read is a text of the characters that were read. -/
theorem map_ofList_eq_ok {ε : Type} {characters : Except ε (List Char)} {s : String} :
    characters.map String.ofList = .ok s ↔ characters = .ok s.toList := by
  constructor
  · intro h
    obtain ⟨cs, rfl, rfl⟩ := map_eq_ok h
    rw [String.toList_ofList]
  · rintro rfl
    exact congrArg Except.ok String.ofList_toList

theorem oneOctet_iff (charset : Charset) (octets : Octets) (s : String) :
    (OneOctet.decodeFrom charset 0 octets).map String.ofList = .ok s ↔
      OneOctet.encodeFrom charset 0 s.toList = .ok octets :=
  map_ofList_eq_ok.trans
    ⟨OneOctet.encodeFrom_of_decodeFrom 0, OneOctet.decodeFrom_of_encodeFrom 0⟩

/-- **Reading undoes writing, and writing undoes reading.** -/
theorem decode_eq_ok_iff (charset : Charset) (octets : Octets) (s : String) :
    charset.decode octets = .ok s ↔ charset.encode s = .ok octets := by
  cases charset with
  | utf8 =>
    refine map_ofList_eq_ok.trans ⟨fun h => ?_, fun h => ?_⟩
    · exact congrArg Except.ok (Utf8.encode_of_decode h)
    · rw [← Except.ok.inj h]
      exact Utf8.decode_encode s.toList
  | ascii => exact oneOctet_iff .ascii octets s
  | latin1 => exact oneOctet_iff .latin1 octets s

theorem exists_encode_iff (charset : Charset) (s : String) :
    (∃ octets, charset.encode s = .ok octets) ↔ charset.Covers s := by
  cases charset with
  | utf8 => exact ⟨fun _ => .inl rfl, fun _ => ⟨_, rfl⟩⟩
  | ascii =>
    refine (OneOctet.exists_encodeFrom_iff 0).trans ⟨.inr, fun h => ?_⟩
    exact h.resolve_left (by decide)
  | latin1 =>
    refine (OneOctet.exists_encodeFrom_iff 0).trans ⟨.inr, fun h => ?_⟩
    exact h.resolve_left (by decide)

end Charset

end Text

/-! ## Payloads -/

namespace Received

open Text (Octets Charset)

/-- A text as octets, in an encoding that is known. -/
theorem octetsIn_name (charset : Charset) (s : String) (octets : Octets) :
    (text s).octetsIn charset.name = .ok octets ↔ charset.encode s = .ok octets := by
  rw [octetsIn, Charset.ofName?_name]
  exact mapError_eq_ok

/-- Octets as a text, in an encoding that is known. -/
theorem textIn_name (charset : Charset) (s : String) (octets : Octets) :
    (Received.octets octets).textIn charset.name = .ok (text s) ↔
      charset.decode octets = .ok s := by
  cases octets with
  | nil =>
    -- no octets are read as no text whatever the encoding, and each encoding does the same
    have hnone : charset.decode [] = .ok "" := by
      cases charset <;> exact congrArg Except.ok String.ofList_nil
    rw [textIn, hnone, Except.ok.injEq, Except.ok.injEq, text.injEq]
  | cons b r =>
    have hread : (Received.octets (b :: r)).textIn charset.name =
        ((charset.decode (b :: r)).mapError .characters).map text := by
      rw [textIn, Charset.ofName?_name]
      exact List.cons_ne_nil b r
    rw [hread]
    cases charset.decode (b :: r) with
    | error fault => exact ⟨nofun, nofun⟩
    | ok found =>
      show Except.ok (text found) = .ok (text s) ↔ _
      rw [Except.ok.injEq, Except.ok.injEq, text.injEq]

/-- **No body is changed by its form.** In every encoding, a text that is carried as octets is read
as that text, and octets that are read as a text are the ones that this text is carried as. A text
can be carried in an encoding that has its characters, so that UTF-8 carries every text. -/
theorem carried_unchanged (charset : Charset) (s : String) (octets : Octets) :
    ((text s).octetsIn charset.name = .ok octets ↔
      (Received.octets octets).textIn charset.name = .ok (text s)) ∧
    ((∃ carried, (text s).octetsIn charset.name = .ok carried) ↔ charset.Covers s) ∧
    (text s).octetsIn Charset.utf8.name = .ok (Text.utf8 s) := by
  refine ⟨?_, ?_, ?_⟩
  · rw [textIn_name, octetsIn_name, Charset.decode_eq_ok_iff]
  · simp only [octetsIn_name]
    exact charset.exists_encode_iff s
  · exact (octetsIn_name .utf8 s _).2 rfl

end Received

end Dataspace
