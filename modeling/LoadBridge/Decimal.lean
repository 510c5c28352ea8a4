/-!
# Decimal numbers

Numbers written in decimal digits, and which of them are finite as binary floating point numbers of
sixty-four bits.  `isFinite` rounds the written number once.  `isFiniteProduct` rounds its digits
and its power of ten apart and then their product, which near the end of the range decides
otherwise.
-/

namespace LoadBridge.Decimal

/-- The number written by decimal digits. -/
def ofDigits (ds : List Char) : Nat := ds.foldl (fun n d => n * 10 + (d.toNat - 48)) 0

/-- The number `n` followed by decimal digits, as many of them as sixty-four bits have room for,
and how many are left over. -/
def extend (n : Nat) : List Char → Nat × Nat
  | [] => (n, 0)
  | d :: ds =>
    let next := n * 10 + (d.toNat - 48)
    if next < UInt64.size then extend next ds else (n, ds.length + 1)

/-- The least number that rounds to infinity: half a unit above the largest finite one. -/
def leastInfinite : Nat := Nat.pow 2 1024 - Nat.pow 2 970

/-- Whether `m · 10^e` rounds to a finite number.  A negative exponent that is larger than the
number of digits of `m` makes no difference, and a positive one above 400 is too large for any `m`
but zero. -/
def isFinite (m : Nat) (e : Int) : Bool :=
  if m = 0 then true
  else if e ≤ 0 then m < leastInfinite * Nat.pow 10 (min e.natAbs (m.log2 + 1))
  else e ≤ 400 && m * Nat.pow 10 e.toNat < leastInfinite

/-- The number of fifty-three significant bits that is nearest to `n`, and of two the one whose
last bit is zero. -/
def nearest (n : Nat) : Nat :=
  let unit := Nat.pow 2 (n.log2 - 52)
  let kept := n / unit
  let lost := 2 * (n % unit)
  if unit < lost ∨ (unit = lost ∧ kept % 2 = 1) then (kept + 1) * unit else kept * unit

/-- The exponent of the largest power of ten that is finite. -/
def largestPower : Nat := 308

/-- Whether the numbers nearest to `m` and to `10^e` have a finite product, where a larger power
of ten than the largest is refused for any `m` but zero.  A number below `2^64` divided by a power
of ten is finite. -/
def isFiniteProduct (m : Nat) (e : Int) : Bool :=
  m == 0 || (e ≤ largestPower && nearest m * nearest (Nat.pow 10 e.toNat) < leastInfinite)

end LoadBridge.Decimal
