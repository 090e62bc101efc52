import GoldenCheck.Number.Numeral

/-!
Binary floating-point numbers of 64 bits, held as their bits, so that they compare as data. Decimals
are read to the nearest one.
-/

namespace GoldenCheck

structure Binary64 where
  bits : UInt64
deriving DecidableEq

namespace Binary64

def infinity : Binary64 := ⟨0x7FF0000000000000⟩

def nan : Binary64 := ⟨0x7FF8000000000000⟩

def zero : Binary64 := ⟨0⟩

def isNegative (x : Binary64) : Bool := 0x8000000000000000 ≤ x.bits

/-- Flips the sign. -/
def neg (x : Binary64) : Binary64 := ⟨x.bits ^^^ 0x8000000000000000⟩

/-- The exponent as stored, in eleven bits. -/
def storedExponent (x : Binary64) : Nat := x.bits.toNat / 0x10000000000000 % 0x800

def storedFraction (x : Binary64) : Nat := x.bits.toNat % 0x10000000000000

def isZero (x : Binary64) : Bool := x.bits.toNat % 0x8000000000000000 = 0

def isInfinite (x : Binary64) : Bool := x.storedExponent = 2047 && x.storedFraction = 0

def isNaN (x : Binary64) : Bool := x.storedExponent = 2047 && x.storedFraction ≠ 0

/-- The numbers `m` and `q` such that a finite number has the size `m * 2 ^ q`. -/
def significand (x : Binary64) : Nat × Int :=
  if x.storedExponent = 0 then (x.storedFraction, -1074)
  else (0x10000000000000 + x.storedFraction, (x.storedExponent : Int) - 1075)

/-- The number nearest to `m * 10 ^ e`; past the largest finite one it is infinity. -/
def ofDecimal (m : Nat) (e : Int) : Binary64 :=
  let magnitude := ((Numeral.digits m).length : Int) + e
  if m = 0 ∨ magnitude < -330 then zero
  else if 310 < magnitude then infinity
  else ⟨(Float.ofScientific m (e < 0) e.natAbs).toBits⟩

end Binary64
end GoldenCheck
