import GoldenCheck.Prime.Verdict

/-!
The check of any value. Each question takes the value as it comes: it refuses what is no integer,
reduces it to its word and answers about that.
-/

namespace GoldenCheck
namespace Prime
namespace Checked

def word (v : Json.Value) : Except Fault Nat := do
  let a ← integer v
  .ok (Prime.word a)

def firstDivisor (v : Json.Value) : Except Fault Nat := do
  let u ← word v
  .ok (leastDivisor u)

def classify (v : Json.Value) : Except Fault Verdict := do
  let u ← word v
  if domainMax < u then .ok .outOfDomain
  else if 1 < u then
    let d ← firstDivisor (.int u)
    .ok (if d = u then .prime else .notPrime)
  else .ok .notPrime

def smallPrime (v : Json.Value) : Except Fault Int := do
  let verdict ← classify v
  .ok verdict.status

def requireSmallPrime (v : Json.Value) : Except Fault Bool := do
  let verdict ← classify v
  if verdict = .outOfDomain then
    let u ← word v
    .error (.outOfDomain u)
  else .ok (verdict = .prime)

def describe (v : Json.Value) : Except Fault Text := do
  let u ← word v
  match ← classify (.int u) with
  | .prime => .ok (Numeral.ofNat u ++ " is prime")
  | .notPrime =>
    let d ← firstDivisor (.int u)
    .ok (Numeral.ofNat u ++ " is not prime (smallest factor: " ++ Numeral.ofNat d ++ ")")
  | .outOfDomain =>
    .ok (Numeral.ofNat u ++ " is out of range (only 0.." ++ Numeral.ofNat domainMax ++
      " are checked)")

end Checked
end Prime
end GoldenCheck
