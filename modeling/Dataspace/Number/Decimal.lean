import Dataspace.Number.Binary64

/-!
# Numbers as text

A double is written with the fewest decimal digits that read back to it; of two such decimals the
nearer one is taken. The digits stand positionally while the decimal point falls at most three
zeros before them and at most sixteen digits after their start; otherwise the number has an
exponent with a sign and at least two digits.
-/

namespace Dataspace.Decimal

/-- Decimal digits after the point, times a power of ten: `0.d₁d₂… * 10 ^ point`. -/
structure Digits where
  digits : List Char
  point : Int
deriving DecidableEq, Repr

/-- Compares `a * 10 ^ i` with `n * 2 ^ j`. -/
def compareScaled (a : Nat) (i : Int) (n : Nat) (j : Int) : Ordering :=
  compare (a * Nat.pow 10 i.toNat * Nat.pow 2 (-j).toNat)
    (n * Nat.pow 2 j.toNat * Nat.pow 10 (-i).toNat)

/-- Whether `a * 10 ^ i` rounds to the double `m * 2 ^ q`: it lies between the midpoints to the two
neighbours, which belong to the double exactly if its significand is even. The neighbour below a
power of two is half as far away as the one above. -/
def readsBack (m : Nat) (q : Int) (a : Nat) (i : Int) : Bool :=
  let low := if m = Nat.pow 2 52 && -1074 < q then 4 * m - 1 else 4 * m - 2
  let below := compareScaled a i low (q - 2)
  let above := compareScaled a i (4 * m + 2) (q - 2)
  (below == .gt || (m % 2 == 0 && below == .eq)) && (above == .lt || (m % 2 == 0 && above == .eq))

/-- The least `k` with `m * 2 ^ q < 10 ^ k`, found upward from an estimate that is not above it. -/
def pointFrom (m : Nat) (q : Int) : (fuel : Nat) → Int → Int
  | 0, k => k
  | fuel + 1, k => if compareScaled 1 k m q == .gt then k else pointFrom m q fuel (k + 1)

def pointOf (m : Nat) (q : Int) : Int :=
  pointFrom m q 8 (((m.log2 : Int) + q) * 30103 / 100000 - 2)

/-- The digits before the point of `m * 2 ^ q / 10 ^ i`. -/
def quotient (m : Nat) (q i : Int) : Nat :=
  (m * Nat.pow 2 q.toNat * Nat.pow 10 (-i).toNat) / (Nat.pow 2 (-q).toNat * Nat.pow 10 i.toNat)

/-- The multiple of `10 ^ i` that reads back to `m * 2 ^ q`, if one does; of two the nearer, and
the even one of two equally near. -/
def candidate (m : Nat) (q i : Int) : Option Nat :=
  let a := quotient m q i
  match readsBack m q a i, readsBack m q (a + 1) i with
  | true, false => some a
  | false, true => some (a + 1)
  | false, false => none
  | true, true =>
    match compareScaled (2 * a + 1) i (2 * m) q with
    | .gt => some a
    | .lt => some (a + 1)
    | .eq => some (a + a % 2)

/-- Tries one more digit at a time. -/
def search (m : Nat) (q point : Int) : (count tried : Nat) → Nat × Int
  | 0, tried => (quotient m q (point - tried), point - tried)
  | count + 1, tried =>
    match candidate m q (point - (tried + 1)) with
    | some a => (a, point - (tried + 1))
    | none => search m q point count (tried + 1)

/-- The shortest digits of a positive double `m * 2 ^ q`. -/
def shortest (m : Nat) (q : Int) : Digits :=
  let (a, i) := search m q (pointOf m q) 17 0
  let ds := Nat.toDigits 10 a
  ⟨(ds.reverse.dropWhile (· == '0')).reverse, ds.length + i⟩

/-- The decimal digits of a natural number. -/
def natDigits (n : Nat) : List Char :=
  Nat.toDigits 10 n

def ofNat (n : Nat) : String :=
  String.ofList (natDigits n)

def ofInt (i : Int) : String :=
  if i < 0 then "-" ++ ofNat i.natAbs else ofNat i.natAbs

/-- A natural number with zeros in front up to a width. -/
def padded (width n : Nat) : List Char :=
  let ds := natDigits n
  List.replicate (width - ds.length) '0' ++ ds

/-- Where the digits, the point and the exponent stand. -/
def layout (d : Digits) : List Char :=
  let size : Int := d.digits.length
  if d.point ≤ -4 || 16 < d.point then
    let exponent := d.point - 1
    let mark := if exponent < 0 then ['e', '-'] else ['e', '+']
    match d.digits with
    | [] => []
    | c :: [] => c :: mark ++ padded 2 exponent.natAbs
    | c :: r => c :: '.' :: r ++ mark ++ padded 2 exponent.natAbs
  else if d.point ≤ 0 then
    ['0', '.'] ++ List.replicate (-d.point).toNat '0' ++ d.digits
  else if size ≤ d.point then
    d.digits ++ List.replicate (d.point - size).toNat '0' ++ ['.', '0']
  else
    d.digits.take d.point.toNat ++ '.' :: d.digits.drop d.point.toNat

/-- The text of a double, given the word for infinity and the one for no number. -/
def render (infinity notANumber : String) : Binary64 → String
  | .nan => notANumber
  | .infinite negative => (if negative then "-" else "") ++ infinity
  | .finite negative m q =>
    (if negative then "-" else "") ++
      (if m = 0 then "0.0" else String.ofList (layout (shortest m q)))

/-- The text of a double outside of a document. -/
def ofBinary64 : Binary64 → String :=
  render "inf" "nan"

end Dataspace.Decimal
