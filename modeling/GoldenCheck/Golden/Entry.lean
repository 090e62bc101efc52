import GoldenCheck.Json.Display
import GoldenCheck.Prime.Verdict

/-! The functions whose output is recorded, and the names they go by. -/

namespace GoldenCheck
namespace Golden

inductive EntryPoint where
  | smallPrime
  | firstDivisor
deriving DecidableEq

namespace EntryPoint

def name : EntryPoint → Text
  | .smallPrime => "is_small_prime"
  | .firstDivisor => "first_divisor"

def apply : EntryPoint → Int → Int
  | .smallPrime, a => Prime.smallPrime a
  | .firstDivisor, a => Prime.firstDivisor a

/-- The names that are known, sorted. `main` is another name of the check. -/
def known : List (Text × EntryPoint) :=
  [("first_divisor", .firstDivisor), ("is_small_prime", .smallPrime), ("main", .smallPrime)]

def ofName (t : Text) : Except Fault EntryPoint :=
  match known.find? fun e => e.1 = t with
  | some e => .ok e.2
  | none => .error (.unknownEntry t (known.map Prod.fst))

/-- The entry point that a configured value names. -/
def ofValue : Json.Value → Except Fault (Text × EntryPoint)
  | .string t =>
    match ofName t with
    | .ok e => .ok (t, e)
    | .error f => .error f
  | v =>
    match v.display? with
    | some shown => .error (.entryNotText shown)
    | none => .error .numeralTooLong

end EntryPoint
end Golden
end GoldenCheck
