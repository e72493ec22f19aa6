/-!
Finite binary floating-point numbers of 64 bits, as exact integers: `mantissa * 2 ^ exponent`
with a sign. `round?` takes a ratio to the nearest one, a tie to the even mantissa, and every
operation is the exact result rounded once.
-/
namespace LintRemedy

-- A power is repeated multiplication of integers, and not taken from an algebraic structure on them.
namespace Powers

scoped instance (priority := high) powerOfNat : Pow Nat Nat := instPowNat

scoped instance (priority := high) powerOfInt : Pow Int Nat := instPowNat

end Powers

open scoped Powers

/-- Kept in normal form: the mantissa has 53 bits, or the exponent is the least one, -1074. -/
structure Binary64 where
  negative : Bool
  mantissa : Nat
  exponent : Int
  deriving DecidableEq, Repr

namespace Binary64

def zero : Binary64 := ⟨false, 0, -1074⟩

def isZero (x : Binary64) : Bool := x.mantissa == 0

def scaled (n : Nat) (e : Int) : Nat × Nat :=
  if e < 0 then (n, 2 ^ e.natAbs) else (n * 2 ^ e.natAbs, 1)

/-- The ratio `num / den` in units of `2 ^ e`. -/
def inUnits (num den : Nat) (e : Int) : Nat × Nat :=
  if e < 0 then (num * 2 ^ e.natAbs, den) else (num, den * 2 ^ e.natAbs)

def halfEven (num den : Nat) : Nat :=
  let q := num / den
  let r := num % den
  if 2 * r < den then q
  else if 2 * r = den then q + q % 2
  else q + 1

def unitOf (num den : Nat) : Int :=
  let e : Int := max ((num.log2 : Int) - den.log2 - 52) (-1074)
  let (n, d) := inUnits num den e
  if n / d < 2 ^ (52 : Nat) then max (e - 1) (-1074) else e

def round? (negative : Bool) (num den : Nat) : Option Binary64 :=
  if num = 0 then some ⟨negative, 0, -1074⟩
  else
    let e := unitOf num den
    let (n, d) := inUnits num den e
    let m := halfEven n d
    let (m, e) := if m = 2 ^ (53 : Nat) then (2 ^ (52 : Nat), e + 1) else (m, e)
    if e > 971 then none else some ⟨negative, m, e⟩

def ratio (x : Binary64) : Nat × Nat := scaled x.mantissa x.exponent

def mul? (x y : Binary64) : Option Binary64 :=
  round? (x.negative != y.negative) (x.ratio.1 * y.ratio.1) (x.ratio.2 * y.ratio.2)

def div? (x y : Binary64) : Option Binary64 :=
  round? (x.negative != y.negative) (x.ratio.1 * y.ratio.2) (x.ratio.2 * y.ratio.1)

def powerOfTen? (n : Nat) : Option Binary64 := round? false (10 ^ n) 1

def topPower : Nat := 308

def lowerBy (x : Binary64) (n : Nat) : Option Binary64 := do x.div? (← powerOfTen? n)

/-- Moves the decimal point. A factor beyond the greatest power of ten is applied in two steps,
after which nothing is left of a 64-bit integer. -/
def shift? (x : Binary64) (e : Int) : Option Binary64 :=
  let n := e.natAbs
  if x.isZero then some x
  else if 0 ≤ e then if n ≤ topPower then do x.mul? (← powerOfTen? n) else none
  else if n ≤ topPower then x.lowerBy n
  else do
    let y ← x.lowerBy topPower
    if n ≤ 2 * topPower then y.lowerBy (n - topPower) else some { y with mantissa := 0, exponent := -1074 }

def ofDecimal? (negative : Bool) (significand : Nat) (e : Int) : Option Binary64 := do
  let x ← round? negative significand 1
  x.shift? e

end Binary64
end LintRemedy
