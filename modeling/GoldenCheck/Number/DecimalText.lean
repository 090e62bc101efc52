import GoldenCheck.Number.Binary64

/-!
The parts of a written decimal, each scanned off the front of a text: digits, a fraction, an
exponent. A part that does not match leaves the text as it is.
-/

namespace GoldenCheck
namespace DecimalText

/-- The value of ASCII digits. -/
def value (ds : List Char) : Nat := Numeral.value (ds.map fun c => c.toNat - '0'.toNat)

/-- A point and the digits after it, of which there is at least one. -/
def fraction (s : List Char) : List Char × List Char :=
  match s with
  | '.' :: t =>
    match t.takeWhile Char.isDigit with
    | [] => ([], s)
    | ds => (ds, t.dropWhile Char.isDigit)
  | _ => ([], s)

/-- A minus sign, a plus sign or nothing. -/
def sign : List Char → Bool × List Char
  | '-' :: s => (true, s)
  | '+' :: s => (false, s)
  | s => (false, s)

def signed (negative : Bool) (n : Nat) : Int := if negative then -(n : Int) else n

/-- The letter `e`, a sign or nothing, and digits, of which there is at least one. -/
def exponent (s : List Char) : Option Int × List Char :=
  match s with
  | c :: t =>
    if c = 'e' ∨ c = 'E' then
      match (sign t).2.takeWhile Char.isDigit with
      | [] => (none, s)
      | ds => (some (signed (sign t).1 (value ds)), (sign t).2.dropWhile Char.isDigit)
    else (none, s)
  | [] => (none, s)

/-- The number nearest to the decimal with the given parts. -/
def toBinary64 (negative : Bool) (whole fraction : List Char) (exponent : Int) : Binary64 :=
  let x := Binary64.ofDecimal (value (whole ++ fraction)) (exponent - fraction.length)
  if negative then x.neg else x

end DecimalText
end GoldenCheck
