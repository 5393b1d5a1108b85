import DaemonKeeper.Text.Decimal
set_option autoImplicit false

/-!
# Decimals: binary floating point and back

A decimal `digits · 10 ^ exponent` is rounded to the nearest number `m · 2 ^ q` with `m < 2 ^ 53`
and `-1074 ≤ q ≤ 971`, ties going to even `m`.  The shortest decimal of such a number is the one
with the fewest digits among those that round to it, and of those the nearest.  Everything is exact
arithmetic on natural numbers.
-/

namespace DaemonKeeper.Decimal

/-- The number `m · 2 ^ q`. -/
structure Binary64 where
  m : Nat
  q : Int
  deriving DecidableEq, Repr

/-- The least `m` that has 53 bits, two to the power 52. -/
def leastFull : Nat := 4503599627370496

/-- `base ^ e` for a positive exponent, else one. -/
def powPos (base : Nat) (e : Int) : Nat := base.pow e.toNat

/-- `num / den` rounded to the nearest whole number, a tie to the even one. -/
def roundEven (num den : Nat) : Nat :=
  let down := num / den
  let rest := num % den
  if 2 * rest < den then down
  else if den < 2 * rest then down + 1
  else if down % 2 = 0 then down else down + 1

/-- `num / den` in units of `2 ^ q`. -/
def inUnits (num den : Nat) (q : Int) : Nat × Nat := (num * powPos 2 (-q), den * powPos 2 q)

/-- The binary number nearest to a positive fraction, or `none` if it is too large. -/
def ofFraction (num den : Nat) : Option Binary64 :=
  let guess : Int := (Nat.log2 num : Int) - Nat.log2 den - 52
  let floorAt (q : Int) : Nat := (inUnits num den q).1 / (inUnits num den q).2
  let exact := if floorAt guess < leastFull then guess - 1 else guess
  let q := max exact (-1074)
  let m := roundEven (inUnits num den q).1 (inUnits num den q).2
  let (m, q) := if m = 2 * leastFull then (leastFull, q + 1) else (m, q)
  if q ≤ 971 then some ⟨m, q⟩ else none

/-- The binary number nearest to `digits · 10 ^ exponent`, or `none` if it is too large. -/
def ofDecimal (digits : Nat) (exponent : Int) : Option Binary64 :=
  let places : Int := (toString digits).length + exponent
  if digits = 0 || places < -400 then some ⟨0, -1074⟩
  else if 400 < places then none
  else ofFraction (digits * powPos 10 exponent) (powPos 10 (-exponent))

/-- `digits · 10 ^ exponent` rounds to the number: it lies between the midpoints to the two
neighbours, or on one of them if `m` is even.  Everything is counted in quarters of `2 ^ q`. -/
def roundsTo (b : Binary64) (digits : Nat) (exponent : Int) : Bool :=
  let value := 4 * digits * powPos 10 exponent * powPos 2 (-b.q)
  let unit := powPos 10 (-exponent) * powPos 2 b.q
  let below := if b.m = leastFull && -1074 < b.q then 1 else 2
  let low := (4 * b.m - below) * unit
  let high := (4 * b.m + 2) * unit
  if b.m % 2 = 0 then low ≤ value && value ≤ high else low < value && value < high

/-- The number of digits before the point of a positive fraction, negative if zeros follow the
point. -/
def pointPosition (num den : Nat) : Int :=
  let guess : Int := (toString num).length - (toString den).length
  if den * powPos 10 guess ≤ num * powPos 10 (-guess) then guess + 1 else guess

/-- The shortest decimal of a positive number, with at least `n` and at most `n + fuel` digits. -/
def shortestFrom (b : Binary64) (num den : Nat) (position : Int) : Nat → Nat → Nat × Int
  | n, 0 => (roundEven (num * powPos 10 (n - position)) (den * powPos 10 (position - n)),
      position - n)
  | n, fuel + 1 =>
    let e := position - n
    let scaledNum := num * powPos 10 (-e)
    let scaledDen := den * powPos 10 e
    let down := scaledNum / scaledDen
    let nearest := roundEven scaledNum scaledDen
    let other := if nearest = down then down + 1 else down
    if roundsTo b nearest e then (nearest, e)
    else if roundsTo b other e then (other, e)
    else shortestFrom b num den position (n + 1) fuel

/-- The shortest decimal that rounds to the number, as digits and exponent. -/
def shortest (b : Binary64) : Nat × Int :=
  if b.m = 0 then (0, 0)
  else
    let num := b.m * powPos 2 b.q
    let den := powPos 2 (-b.q)
    shortestFrom b num den (pointPosition num den) 1 16

/-- `digits · 10 ^ exponent` written with a point and at least one digit on each side of it. -/
def positional (digits : Nat) (exponent : Int) : String :=
  if 0 ≤ exponent then toString (digits * powPos 10 exponent) ++ ".0"
  else
    let unit := powPos 10 (-exponent)
    let fraction := Text.padZeros (-exponent).toNat (toString (digits % unit))
    let kept := (fraction.toList.reverse.dropWhile (· == '0')).reverse
    toString (digits / unit) ++ "." ++ (if kept.isEmpty then "0" else String.ofList kept)

end DaemonKeeper.Decimal
