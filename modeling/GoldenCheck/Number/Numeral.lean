import GoldenCheck.Text.Basic
import GoldenCheck.Text.Blank
import GoldenCheck.Text.Digit

/-!
Decimal numerals of integers: how they are written, and which texts are read as one. Numerals of more
than `digitLimit` digits are neither written nor read.
-/

namespace GoldenCheck
namespace Numeral

/-- The most digits of a numeral. -/
def digitLimit : Nat := 4300

/-- The decimal digits of a natural number, without leading zeros. -/
def digits (n : Nat) : List Char := Nat.toDigits 10 n

/-- The numeral of an integer of any size. -/
def ofInt (a : Int) : List Char :=
  if a < 0 then '-' :: digits a.natAbs else digits a.natAbs

def ofNat (n : Nat) : Text := Text.ofChars (digits n)

/-- The numeral of an integer, unless it has too many digits. -/
def ofInt? (a : Int) : Option (List Char) :=
  if (digits a.natAbs).length ≤ digitLimit then some (ofInt a) else none

/-- The number that decimal digits, the highest first, stand for. -/
def value (ds : List Nat) : Nat := ds.foldl (fun n d => n * 10 + d) 0

def blankPoint (p : CodePoint) : Bool := isBlank p.toNat

/-- The text without the white space at both ends. -/
def strip (t : Text) : Text :=
  ((t.dropWhile blankPoint).reverse.dropWhile blankPoint).reverse

/-- Digits with single underscores between them, after a digit. -/
def moreDigits : Text → Option (List Nat)
  | [] => some []
  | .char '_' :: p :: t => (digitValue? p.toNat).bind fun d => (moreDigits t).map (d :: ·)
  | p :: t => (digitValue? p.toNat).bind fun d => (moreDigits t).map (d :: ·)

/-- Digits of any script with single underscores between them. -/
def digitRun? : Text → Option (List Nat)
  | [] => none
  | p :: t => (digitValue? p.toNat).bind fun d => (moreDigits t).map (d :: ·)

def natural? (t : Text) : Option Nat :=
  (digitRun? t).bind fun ds => if ds.length ≤ digitLimit then some (value ds) else none

/-- The integer that a text is read as: white space around it, a sign, digits. -/
def read? (t : Text) : Option Int :=
  match strip t with
  | .char '-' :: ds => (natural? ds).map fun n => -(n : Int)
  | .char '+' :: ds => (natural? ds).map fun n => (n : Int)
  | ds => (natural? ds).map fun n => (n : Int)

end Numeral
end GoldenCheck
