import LintRemedy.Number.Binary64

/-!
The decimal text of a binary number: the fewest digits that read back as the number, and of
those the nearest to it. The digits are looked for on one decimal grid after another, from one
digit up; 17 digits are always enough.
-/
namespace LintRemedy.Shortest
open scoped LintRemedy.Powers

/-- The reals that round to a number, times `4 * den`: `low` and `high` bound them, and belong
to them if `closed`. -/
structure Interval where
  low : Nat
  value : Nat
  high : Nat
  den : Nat
  closed : Bool
  deriving Repr

/- Below a power of two the neighbours lie twice as close as above it. -/
def Interval.ofBinary (x : Binary64) : Interval :=
  let m := 4 * x.mantissa
  let below := if x.mantissa = 2 ^ (52 : Nat) && x.exponent > -1074 then 1 else 2
  let by2 (n : Nat) := (Binary64.scaled n x.exponent).1
  ⟨by2 (m - below), by2 m, by2 (m + 2), 4 * (Binary64.scaled 1 x.exponent).2,
    x.mantissa % 2 == 0⟩

def Interval.holds (i : Interval) (n : Nat) (e : Int) : Bool :=
  let (n, low, high) :=
    if e < 0 then (n * i.den, i.low * 10 ^ e.natAbs, i.high * 10 ^ e.natAbs)
    else (n * i.den * 10 ^ e.natAbs, i.low, i.high)
  if i.closed then low ≤ n && n ≤ high else low < n && n < high

/-- `floor (value / 10 ^ e)`, and whether the next grid point is the better one: it lies nearer, or
as near and is even. -/
def Interval.gridBelow (i : Interval) (e : Int) : Nat × Bool :=
  let (v, d) := if e < 0 then (i.value * 10 ^ e.natAbs, i.den) else (i.value, i.den * 10 ^ e.natAbs)
  (v / d, d < 2 * (v % d) || (d == 2 * (v % d) && v / d % 2 == 1))

def Interval.pick? (i : Interval) (e : Int) : Option Nat :=
  let (n, upper) := i.gridBelow e
  match i.holds n e && n != 0, i.holds (n + 1) e with
  | true, true => some (if upper then n + 1 else n)
  | true, false => some n
  | false, true => some (n + 1)
  | false, false => none

def Interval.leading (i : Interval) : Int :=
  let v := i.value / i.den
  if v ≠ 0 then (Nat.toDigits 10 v).length - 1
  else
    /- `den / value` has as many digits as there are places before the leading one, but for one. -/
    let places : Int := (Nat.toDigits 10 (i.den / i.value)).length
    if i.value * 10 ^ (places - 1).natAbs ≥ i.den then 1 - places else -places

def search (i : Interval) (lead : Int) : Nat → Nat → Nat × Int
  | 0, digits => ((i.gridBelow (lead - digits)).1, lead - digits)
  | n + 1, digits => match i.pick? (lead - digits) with
    | some m => (m, lead - digits)
    | none => search i lead n (digits + 1)

def stripZeros : Nat → Nat → Int → Nat × Int
  | 0, m, e => (m, e)
  | n + 1, m, e => if m % 10 = 0 && m ≠ 0 then stripZeros n (m / 10) (e + 1) else (m, e)

def decimal (x : Binary64) : List Char × Int :=
  let i := Interval.ofBinary x
  let (m, e) := search i i.leading 17 0
  let (m, e) := stripZeros 20 m e
  (Nat.toDigits 10 m, e)

structure Layout where
  least : Int
  greatest : Int

def plain : Layout := ⟨-5, 15⟩

def zeros (n : Int) : List Char := List.replicate n.toNat '0'

/-- A number without a fraction still shows `.0`; an exponent always shows its sign. -/
def Layout.write (l : Layout) (digits : List Char) (e : Int) : List Char :=
  let size : Int := digits.length
  let lead := e + size - 1
  if l.least ≤ lead && lead ≤ l.greatest then
    if 0 ≤ e then digits ++ zeros e ++ ['.', '0']
    else if 0 ≤ lead then digits.take (lead + 1).toNat ++ '.' :: digits.drop (lead + 1).toNat
    else '0' :: '.' :: zeros (-lead - 1) ++ digits
  else
    digits.take 1 ++ (if size = 1 then [] else '.' :: digits.drop 1) ++
      'e' :: (if lead < 0 then '-' else '+') :: Nat.toDigits 10 lead.natAbs

def text (x : Binary64) : String :=
  let sign := if x.negative then ['-'] else []
  if x.isZero then String.ofList (sign ++ ['0', '.', '0'])
  else
    let (digits, e) := decimal x
    String.ofList (sign ++ plain.write digits e)

end LintRemedy.Shortest
