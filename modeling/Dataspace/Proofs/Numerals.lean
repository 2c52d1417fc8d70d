import Dataspace.Proofs.Basic
import Dataspace.Time.Reader
import Dataspace.Time.Writer
import Mathlib.Algebra.Group.Nat.Defs

/-!
# Numerals read back

Numbers stand in texts with a fixed number of digits: decimal ones in points of time, hexadecimal
ones in escapes. Each of the two is read back to the number it was written for.

* **`fixedDigits_padded`** — a number with zeros in front, and any text after it.
* **`hexUnit?_hex`** — four hexadecimal digits.
-/

namespace Dataspace

/-! ## Decimal digits -/

namespace Decimal

variable {width n : Nat}

/-- A number that fits is written with exactly so many digits. -/
theorem length_padded (hw : 0 < width) (h : n < 10 ^ width) : (padded width n).length = width := by
  have hle : (natDigits n).length ≤ width := (Nat.length_toDigits_le_iff (by decide) hw).2 h
  rw [padded, List.length_append, List.length_replicate]
  exact Nat.sub_add_cancel hle

theorem isDigit_of_mem_padded {c : Char} (h : c ∈ padded width n) : Json.isDigit c = true := by
  have hdigit : c.isDigit = true := by
    rcases List.mem_append.1 h with hzero | hmem
    · rw [(List.mem_replicate.1 hzero).2]
      rfl
    · exact Nat.isDigit_of_mem_toDigits (by decide) (by decide) hmem
  simp only [Char.isDigit, Bool.and_eq_true, decide_eq_true_eq] at hdigit
  simp only [Json.isDigit, Bool.and_eq_true, decide_eq_true_eq]
  exact hdigit

/-- The value of digits is the one that the library gives them. -/
theorem digitsValue_eq (ds : List Char) : Json.digitsValue ds = Nat.ofDigitChars 10 ds 0 := by
  -- both are folds; they multiply in another order
  have hfold : ∀ (ds : List Char) (a : Nat),
      ds.foldl (fun n c => n * 10 + (c.toNat - 48)) a = Nat.ofDigitChars 10 ds a := by
    intro ds
    induction ds with
    | nil => exact fun _ => rfl
    | cons c ds ih =>
      intro a
      rw [List.foldl_cons, ih, Nat.ofDigitChars_cons, Nat.mul_comm a 10]
      rfl
  exact hfold ds 0

theorem digitsValue_padded : Json.digitsValue (padded width n) = n := by
  -- the zeros in front count nothing
  have hzeros : ∀ k, Nat.ofDigitChars 10 (List.replicate k '0') 0 = 0 := by
    intro k
    induction k with
    | zero => rfl
    | succ k ih => rw [List.replicate_succ, Nat.ofDigitChars_cons]; exact ih
  rw [digitsValue_eq, padded, Nat.ofDigitChars_append, hzeros, natDigits]
  exact Nat.ofDigitChars_ten_toDigits

end Decimal

/-- Reading the digits of a number that was written with exactly so many. -/
theorem Timestamp.fixedDigits_padded {width n : Nat} (hw : 0 < width) (h : n < 10 ^ width)
    (s : List Char) : fixedDigits width (Decimal.padded width n ++ s) = some (n, s) := by
  have hlength := Decimal.length_padded hw h
  have htake : (Decimal.padded width n ++ s).take width = Decimal.padded width n :=
    List.take_left' hlength
  have hdrop : (Decimal.padded width n ++ s).drop width = s := List.drop_left' hlength
  have hall : (Decimal.padded width n).all Json.isDigit = true :=
    List.all_eq_true.2 fun _ hc => Decimal.isDigit_of_mem_padded hc
  simp only [fixedDigits, htake, hdrop, hlength, hall, Decimal.digitsValue_padded, decide_true,
    Bool.and_self, if_true]

/-! ## Characters by number -/

namespace Text

/-- The numbers of characters: all below U+110000 but the halves of two-unit characters. -/
theorem toNat_scalar (c : Char) : c.toNat < 0xD800 ∨ 0xDFFF < c.toNat ∧ c.toNat < 0x110000 := by
  have hvalid := c.valid
  simp only [UInt32.isValidChar, Nat.isValidChar] at hvalid
  exact hvalid

theorem hexValue?_hexDigit : ∀ {n : Nat}, n < 16 → hexValue? (hexDigit n) = some n := by
  decide

end Text

/-- The four digits of a unit. -/
theorem Json.hexUnit?_hex {n : Nat} (h : n < 0x10000) :
    ∃ a b c e, Text.hex 4 n = [a, b, c, e] ∧ hexUnit? a b c e = some n := by
  refine ⟨_, _, _, _, rfl, ?_⟩
  have hlow : ∀ m : Nat, m % 16 < 16 := fun m => Nat.mod_lt m (by decide)
  simp only [hexUnit?, Text.hexValue?_hexDigit (hlow _), Option.bind_eq_bind, Option.bind_some,
    Option.pure_def, Option.some.injEq]
  omega

end Dataspace
