/-!
# Double-precision numbers, exactly

A `Binary64` is a sign, a natural significand and a power of two, or an infinity, or no number.
Every operation rounds the exact result once, to the nearest double and to the even one of two
equally near, so that equality is decidable and nothing depends on a machine.
-/

namespace Dataspace

inductive Binary64 where
  /-- The value `± significand * 2 ^ exponent`. -/
  | finite (negative : Bool) (significand : Nat) (exponent : Int)
  | infinite (negative : Bool)
  | nan
deriving DecidableEq, Repr, Inhabited

namespace Binary64

/-- The integer nearest to `num / den`, the even one of two equally near. -/
def divNearest (num den : Nat) : Nat :=
  let q := num / den
  let r := 2 * (num % den)
  if r < den then q else if den < r then q + 1 else q + q % 2

/-- `num / den / 2 ^ exponent` as a quotient of natural numbers. -/
def scaled (num den : Nat) (exponent : Int) : Nat × Nat :=
  (num * Nat.pow 2 (-exponent).toNat, den * Nat.pow 2 exponent.toNat)

/-- The exponent of the double nearest to `num / den`: the quotient takes 53 binary digits, fewer
only at the smallest exponent. -/
def exponentFor (num den : Nat) : Int :=
  let e := max ((num.log2 : Int) - den.log2 - 53) (-1074)
  let (n, d) := scaled num den e
  if Nat.pow 2 53 ≤ n / d then e + 1 else e

/-- The double nearest to `± num / den`, for a positive `den`. -/
def ofRatio (negative : Bool) (num den : Nat) : Binary64 :=
  if num = 0 then finite negative 0 (-1074)
  else
    let e := exponentFor num den
    let (n, d) := scaled num den e
    let m := divNearest n d
    let (m, e) := if m = Nat.pow 2 53 then (Nat.pow 2 52, e + 1) else (m, e)
    if 971 < e then infinite negative else finite negative m e

/-- The double nearest to `± digits * 10 ^ exponent`. The exponents at which the result is zero or
infinite whatever the digits are never computed with. -/
def ofDecimal (negative : Bool) (digits : Nat) (exponent : Int) : Binary64 :=
  let size : Int := (Nat.toDigits 10 digits).length + exponent
  if digits = 0 || size < -330 then finite negative 0 (-1074)
  else if 310 < size then infinite negative
  else ofRatio negative (digits * Nat.pow 10 exponent.toNat) (Nat.pow 10 (-exponent).toNat)

def ofInt (i : Int) : Binary64 :=
  ofRatio (i < 0) i.natAbs 1

/-- The value of a finite double as a fraction; the denominator is a power of two. -/
def toRatio? : Binary64 → Option (Int × Nat)
  | finite negative m e =>
    let n : Nat := m * Nat.pow 2 e.toNat
    some (if negative then -(n : Int) else n, Nat.pow 2 (-e).toNat)
  | _ => none

/-- The double nearest to a fraction with a sign. -/
def ofFraction (num : Int) (den : Nat) : Binary64 :=
  ofRatio (num < 0) num.natAbs den

end Binary64

end Dataspace
