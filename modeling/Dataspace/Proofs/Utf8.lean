import Dataspace.Proofs.Numerals

/-!
# UTF-8 reads back

The octets of a text are decoded to the text. A character takes one to four octets; the first of
them tells how many, and which numbers the second may have, so that no character is spelled in two
ways and no half of a character is spelled at all.

* **`step_encodeChar`** — one character and any octets after it.
* **`decode_encode`** — a whole text.
-/

namespace Dataspace.Text.Utf8

/-! ## First octets -/

theorem lead_one : ∀ k < 0x80, lead (Nat.toUInt8 k) = .single k := by
  decide

theorem lead_two : ∀ k < 32, 2 ≤ k → lead (Nat.toUInt8 (0xC0 + k)) = .multi k 1 0x80 0xBF := by
  decide

theorem lead_three : ∀ k < 16, lead (Nat.toUInt8 (0xE0 + k)) =
    .multi k 2 (if k = 0 then 0xA0 else 0x80) (if k = 13 then 0x9F else 0xBF) := by
  decide

theorem lead_four : ∀ k < 5, lead (Nat.toUInt8 (0xF0 + k)) =
    .multi k 3 (if k = 0 then 0x90 else 0x80) (if k = 4 then 0x8F else 0xBF) := by
  decide

/-! ## Further octets -/

theorem toNat_continuation {k : Nat} (h : k < 64) : (Nat.toUInt8 (0x80 + k)).toNat = 0x80 + k := by
  rw [Nat.toUInt8_eq, UInt8.toNat_ofNat']
  omega

theorem between_continuation {k : Nat} {low high : UInt8} (h : k < 64)
    (hlow : low.toNat ≤ 0x80 + k) (hhigh : 0x80 + k ≤ high.toNat) :
    (low ≤ Nat.toUInt8 (0x80 + k) && Nat.toUInt8 (0x80 + k) ≤ high : Bool) = true := by
  simp only [Bool.and_eq_true, decide_eq_true_eq, UInt8.le_iff_toNat_le, toNat_continuation h]
  exact ⟨hlow, hhigh⟩

theorem isContinuation_continuation {k : Nat} (h : k < 64) :
    isContinuation (Nat.toUInt8 (0x80 + k)) = true := by
  simp only [isContinuation, Bool.and_eq_true, decide_eq_true_eq, UInt8.le_iff_toNat_le,
    UInt8.lt_iff_toNat_lt, toNat_continuation h]
  exact ⟨Nat.le_add_right _ _, Nat.add_lt_add_left h 0x80⟩

/-- One octet more adds six binary digits to the code. -/
theorem continuations_cons {k : Nat} (h : k < 64) (count seen bits : Nat) (r : Octets) :
    continuations (count + 1) seen bits (Nat.toUInt8 (0x80 + k) :: r) =
      continuations count (seen + 1) (bits * 64 + k) r := by
  rw [continuations, if_pos (isContinuation_continuation h), toNat_continuation h,
    Nat.add_sub_cancel_left]

/-! ## Characters and texts -/

/-- A character of several octets, once its first two are in order. -/
theorem step_multi {b : UInt8} {bits count k : Nat} {low high : UInt8} {r : Octets}
    (hlead : lead b = .multi bits (count + 1) low high) (hk : k < 64)
    (hlow : low.toNat ≤ 0x80 + k) (hhigh : 0x80 + k ≤ high.toNat) :
    step b (Nat.toUInt8 (0x80 + k) :: r) =
      (continuations count 2 (bits * 64 + k) r).map
        fun (code, rest) => (Char.ofNat code, rest) := by
  rw [step, hlead]
  simp only [between_continuation hk hlow hhigh, if_true, toNat_continuation hk,
    Nat.add_sub_cancel_left]
  rfl

/-- **One character.** The first step takes it and leaves what follows. -/
theorem step_encodeChar (c : Char) (r : Octets) :
    ∃ b more, encodeChar c = b :: more ∧ step b (more ++ r) = .ok (c, r) := by
  have hscalar := toNat_scalar c
  have hc := Char.ofNat_toNat c
  unfold encodeChar
  simp only
  generalize c.toNat = n at hscalar hc
  -- one case for each number of octets, from one to four
  split
  · rename_i hsize
    refine ⟨_, [], rfl, ?_⟩
    rw [step, lead_one n hsize]
    simp only [hc, List.nil_append]
  split
  · refine ⟨_, _, rfl, ?_⟩
    simp only [List.cons_append, List.nil_append]
    have hlead := lead_two (n / 64) (by omega) (by omega)
    have hcode : n / 64 * 64 + n % 64 = n := by omega
    refine (step_multi hlead (k := n % 64) (by omega) ?_ ?_).trans ?_
    · show 0x80 ≤ _
      omega
    · show _ ≤ 0xBF
      omega
    · simp only [continuations, Except.map, hcode, hc]
  split
  · refine ⟨_, _, rfl, ?_⟩
    simp only [List.cons_append, List.nil_append]
    have hlead := lead_three (n / 4096) (by omega)
    have hcode : (n / 4096 * 64 + n / 64 % 64) * 64 + n % 64 = n := by omega
    refine (step_multi hlead (k := n / 64 % 64) (by omega) ?_ ?_).trans ?_
    · -- the lower bound keeps out what fits in two octets
      split
      · show 0xA0 ≤ _
        omega
      · show 0x80 ≤ _
        omega
    · -- the upper bound keeps out the halves of two-unit characters
      split
      · show _ ≤ 0x9F
        omega
      · show _ ≤ 0xBF
        omega
    · rw [continuations_cons (by omega)]
      simp only [continuations, Except.map, hcode, hc]
  · refine ⟨_, _, rfl, ?_⟩
    simp only [List.cons_append, List.nil_append]
    have hlead := lead_four (n / 262144) (by omega)
    have hcode : ((n / 262144 * 64 + n / 4096 % 64) * 64 + n / 64 % 64) * 64 + n % 64 = n := by
      omega
    refine (step_multi hlead (k := n / 4096 % 64) (by omega) ?_ ?_).trans ?_
    · -- the lower bound keeps out what fits in three octets
      split
      · show 0x90 ≤ _
        omega
      · show 0x80 ≤ _
        omega
    · -- the upper bound keeps out what lies above the last character
      split
      · show _ ≤ 0x8F
        omega
      · show _ ≤ 0xBF
        omega
    · rw [continuations_cons (by omega), continuations_cons (by omega)]
      simp only [continuations, Except.map, hcode, hc]

theorem step_encode_cons (c : Char) (cs : List Char) :
    ∃ b more, encode (c :: cs) = b :: (more ++ encode cs) ∧
      step b (more ++ encode cs) = .ok (c, encode cs) := by
  obtain ⟨b, more, hencode, hstep⟩ := step_encodeChar c (encode cs)
  refine ⟨b, more, ?_, hstep⟩
  rw [encode, List.flatMap_cons, hencode]
  rfl

theorem decodeFrom_encode (cs : List Char) :
    ∀ {fuel : Nat} (position : Nat), cs.length ≤ fuel →
      decodeFrom fuel position (encode cs) = .ok cs := by
  induction cs with
  | nil => exact fun {fuel} position _ => by cases fuel <;> rfl
  | cons c cs ih =>
    intro fuel position h
    obtain ⟨fuel, rfl⟩ : ∃ k, fuel = k + 1 := ⟨fuel - 1, by rw [List.length_cons] at h; omega⟩
    obtain ⟨b, more, htext, hstep⟩ := step_encode_cons c cs
    rw [htext, decodeFrom, hstep]
    simp only [ih _ (Nat.le_of_succ_le_succ h), Except.map]

theorem length_le_length_encode (cs : List Char) : cs.length ≤ (encode cs).length := by
  induction cs with
  | nil => exact Nat.le_refl _
  | cons c cs ih =>
    obtain ⟨b, more, htext, -⟩ := step_encode_cons c cs
    rw [htext, List.length_cons, List.length_cons, List.length_append]
    omega

/-- **Whole texts.** The octets of a text are decoded to it. -/
theorem decode_encode (cs : List Char) : decode (encode cs) = .ok cs :=
  decodeFrom_encode cs 0 (length_le_length_encode cs)

/-- No octet of a text is left over between its characters. -/
theorem runs_encode (cs : List Char) : runs (encode cs) = cs.map .inl := by
  -- the reader of runs takes the same steps as `decodeFrom` and never comes to a stray octet
  have hruns : ∀ (cs : List Char) {fuel : Nat}, cs.length ≤ fuel →
      runsFrom fuel (encode cs) = cs.map .inl := by
    intro cs
    induction cs with
    | nil => exact fun {fuel} _ => by cases fuel <;> rfl
    | cons c cs ih =>
      intro fuel h
      obtain ⟨fuel, rfl⟩ : ∃ k, fuel = k + 1 := ⟨fuel - 1, by rw [List.length_cons] at h; omega⟩
      obtain ⟨b, more, htext, hstep⟩ := step_encode_cons c cs
      rw [htext, runsFrom, hstep]
      simp only [ih (Nat.le_of_succ_le_succ h), List.map_cons]
  exact hruns cs (length_le_length_encode cs)

/-! ## ASCII -/

/-- A text in ASCII takes one octet to a character. -/
theorem encode_ascii {cs : List Char} (h : ∀ c ∈ cs, c.toNat < 0x80) :
    encode cs = cs.map fun c => c.toNat.toUInt8 := by
  induction cs with
  | nil => rfl
  | cons c cs ih =>
    rw [encode, List.flatMap_cons, encodeChar, if_pos (h c List.mem_cons_self), List.map_cons,
      ← ih fun x hx => h x (List.mem_cons_of_mem _ hx)]
    rfl

theorem toNat_ascii {c : Char} (h : c.toNat < 0x80) : c.toNat.toUInt8.toNat = c.toNat := by
  rw [Nat.toUInt8_eq, UInt8.toNat_ofNat']
  omega

/-- The octets of a text in ASCII have the numbers of its characters. -/
theorem mem_encode_ascii {cs : List Char} (h : ∀ c ∈ cs, c.toNat < 0x80) {b : UInt8}
    (hb : b ∈ encode cs) : ∃ c ∈ cs, b.toNat = c.toNat := by
  rw [encode_ascii h] at hb
  obtain ⟨c, hc, rfl⟩ := List.mem_map.1 hb
  exact ⟨c, hc, toNat_ascii (h c hc)⟩

theorem encode_append (s t : List Char) : encode (s ++ t) = encode s ++ encode t :=
  List.flatMap_append

end Dataspace.Text.Utf8

/-- ASCII as an encoding of its own agrees with UTF-8. -/
theorem Dataspace.Text.OneOctet.encodeFrom_ascii {cs : List Char} (h : ∀ c ∈ cs, c.toNat < 0x80) :
    ∀ position, encodeFrom .ascii position cs = .ok (Utf8.encode cs) := by
  rw [Utf8.encode_ascii h]
  induction cs with
  | nil => exact fun _ => rfl
  | cons c cs ih =>
    intro position
    have hrest := ih (fun x hx => h x (List.mem_cons_of_mem _ hx)) (position + 1)
    have hc : c.toNat < Charset.ascii.limit := h c List.mem_cons_self
    rw [encodeFrom, if_pos hc, hrest]
    rfl
