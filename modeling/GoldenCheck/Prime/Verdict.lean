import GoldenCheck.Fault
import GoldenCheck.Prime.Divisor

/-! The check of a number: prime, not prime, or past the numbers that are checked. -/

namespace GoldenCheck
namespace Prime

/-- The largest number that is checked. -/
def domainMax : Nat := 10

inductive Verdict where
  | notPrime
  | prime
  | outOfDomain
deriving DecidableEq

/-- The verdict as a number. -/
def Verdict.status : Verdict → Int
  | .notPrime => 0
  | .prime => 1
  | .outOfDomain => -1

def Verdict.ofWord (u : Nat) : Verdict :=
  if domainMax < u then .outOfDomain
  else if 1 < u ∧ leastDivisor u = u then .prime
  else .notPrime

def classify (a : Int) : Verdict := Verdict.ofWord (word a)

def smallPrime (a : Int) : Int := (classify a).status

/-- Whether a number is prime; refuses a number that is not checked. -/
def requireSmallPrime (a : Int) : Except Fault Bool :=
  match classify a with
  | .outOfDomain => .error (.outOfDomain (word a))
  | v => .ok (v = .prime)

/-- The verdict in a sentence, about the word. -/
def describe (a : Int) : Text :=
  match classify a with
  | .prime => Numeral.ofNat (word a) ++ " is prime"
  | .notPrime =>
    Numeral.ofNat (word a) ++ " is not prime (smallest factor: " ++
      Numeral.ofNat (firstDivisor a) ++ ")"
  | .outOfDomain =>
    Numeral.ofNat (word a) ++ " is out of range (only 0.." ++ Numeral.ofNat domainMax ++
      " are checked)"

/-- The integer that a value is; all else, the booleans included, is refused. -/
def integer : Json.Value → Except Fault Int
  | .int n => .ok n
  | v => .error (.notInteger v.typeName)

end Prime
end GoldenCheck
