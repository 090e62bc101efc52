import GoldenCheck.Text.Basic
import GoldenCheck.Text.Printable

/-!
Quoted text. A text stands between single quotes, or double quotes if it has a single quote and no
double one; the backslash, the quote in use and everything unprintable are escaped.
-/

namespace GoldenCheck
namespace Text

def hexDigit (n : Nat) : Char := Nat.digitChar (n % 16)

/-- The low `width` hexadecimal digits of `n`, lower case. -/
def hex (n : Nat) : (width : Nat) → List Char
  | 0 => []
  | width + 1 => hex (n / 16) width ++ [hexDigit n]

/-- An unprintable code point by its number, in the shortest of three forms. -/
def numberEscape (n : Nat) : List Char :=
  if n < 0x100 then '\\' :: 'x' :: hex n 2
  else if n < 0x10000 then '\\' :: 'u' :: hex n 4
  else '\\' :: 'U' :: hex n 8

def quotedPoint (quote : Char) (p : CodePoint) : List Char :=
  match p with
  | .surrogate _ => numberEscape p.toNat
  | .char c =>
    if c = quote ∨ c = '\\' then ['\\', c]
    else if c = '\n' then ['\\', 'n']
    else if c = '\r' then ['\\', 'r']
    else if c = '\t' then ['\\', 't']
    else if isPrintable c.toNat then [c]
    else numberEscape c.toNat

def quoteFor (t : Text) : Char :=
  if .char '\'' ∈ t ∧ .char '"' ∉ t then '"' else '\''

def quoted (t : Text) : Text :=
  ofChars (quoteFor t :: t.flatMap (quotedPoint (quoteFor t)) ++ [quoteFor t])

end Text
end GoldenCheck
