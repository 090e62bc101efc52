import GoldenCheck.Number.Binary64

/-!
The shortest decimal that reads back as a given binary number, and its text: positional for decimal
exponents from -4 to 15, with an exponent of at least two digits otherwise.
-/

namespace GoldenCheck

/-- The decimal `0.d₁d₂d₃… * 10 ^ (exponent + 1)`, with a nonzero first digit. -/
structure Decimal where
  digits : List Char
  exponent : Int

namespace Binary64

/-- The numbers that round to `m * 2 ^ q`, in units of `2 ^ (q - 2)`: the value itself is `4 * m`. -/
structure Interval where
  low : Nat
  value : Nat
  high : Nat
  closed : Bool

/-- Below a power of two the next number is half as far away. -/
def interval (m : Nat) (q : Int) : Interval :=
  { low := if m = 0x10000000000000 ∧ q ≠ -1074 then 4 * m - 1 else 4 * m - 2
    value := 4 * m
    high := 4 * m + 2
    closed := m % 2 = 0 }

/-- The ratio `num / den` such that `x` times `2 ^ s` is `x * num / den` times `10 ^ p`. -/
def gridRatio (s p : Int) : Nat × Nat :=
  (Nat.pow 2 s.toNat * Nat.pow 10 (-p).toNat, Nat.pow 2 (-s).toNat * Nat.pow 10 p.toNat)

/-- The exponent of the first digit of `x * 2 ^ s`. -/
def leadingExponent (x : Nat) (s : Int) : Int :=
  let (num, den) := gridRatio s 0
  let whole := x * num / den
  if 0 < whole then (Numeral.digits whole).length - 1
  else
    match (List.range 330).find? fun j => den ≤ x * num * Nat.pow 10 j with
    | some j => -(j : Int)
    | none => 0

/-- The multiple of `10 ^ p` nearest to the value, if it lies in the interval: of the two next to the
value, the nearer one, and the even one of two equally near. -/
def gridPoint? (i : Interval) (s p : Int) : Option Nat :=
  let (num, den) := gridRatio s p
  let d := i.value * num / den
  let inside := fun k =>
    if i.closed then i.low * num ≤ k * den && k * den ≤ i.high * num
    else i.low * num < k * den && k * den < i.high * num
  let below := i.value * num - d * den
  let above := (d + 1) * den - i.value * num
  let nearer := if below < above ∨ (below = above ∧ d % 2 = 0) then d else d + 1
  let farther := if nearer = d then d + 1 else d
  if inside nearer then some nearer else if inside farther then some farther else none

/-- The shortest decimal of `m * 2 ^ q`, for `m` above zero. -/
def shortest (m : Nat) (q : Int) : Decimal :=
  let i := interval m q
  let e := leadingExponent i.value (q - 2)
  let found := (List.range 18).findSome? fun (k : Nat) =>
    (gridPoint? i (q - 2) (e - k)).bind fun n => if n = 0 then none else some (n, e - (k : Int))
  match found with
  | none => ⟨['0'], 0⟩
  | some (n, p) =>
    let ds := Numeral.digits n
    ⟨(ds.reverse.dropWhile (· = '0')).reverse, p + ds.length - 1⟩

/-- The decimal point stands among the digits or next to them; at least one digit follows it. -/
def positional (d : Decimal) : List Char :=
  if d.exponent < 0 then
    '0' :: '.' :: List.replicate (-d.exponent - 1).toNat '0' ++ d.digits
  else
    let whole := d.exponent.toNat + 1
    let fraction := d.digits.drop whole
    d.digits.take whole ++ List.replicate (whole - d.digits.length) '0' ++
      '.' :: (if fraction = [] then ['0'] else fraction)

/-- The exponent has a sign and at least two digits. -/
def scientific (d : Decimal) : List Char :=
  let exponent := Numeral.digits d.exponent.natAbs
  d.digits.take 1 ++ (if d.digits.length ≤ 1 then [] else '.' :: d.digits.drop 1) ++
    'e' :: (if d.exponent < 0 then '-' else '+') ::
      (if exponent.length < 2 then '0' :: exponent else exponent)

def magnitudeText (x : Binary64) : List Char :=
  if x.isInfinite then "inf".toList
  else if x.isZero then "0.0".toList
  else
    let d := shortest x.significand.1 x.significand.2
    if -4 ≤ d.exponent ∧ d.exponent < 16 then positional d else scientific d

def text (x : Binary64) : List Char :=
  if x.isNaN then "nan".toList
  else if x.isNegative then '-' :: x.magnitudeText
  else x.magnitudeText

end Binary64
end GoldenCheck
