import GoldenCheck.Json.Value
import GoldenCheck.Number.Shortest
import GoldenCheck.Text.Quoted

/-!
Writing JSON text in ASCII: everything outside printable ASCII is escaped, a character past 0xFFFF as
two surrogate halves.
-/

namespace GoldenCheck
namespace Json

def unitEscape (n : Nat) : List Char := '\\' :: 'u' :: Text.hex n 4

def pointText : CodePoint → List Char
  | .surrogate k => unitEscape (0xD800 + k.val)
  | .char c =>
    if c = '"' ∨ c = '\\' then ['\\', c]
    else if c = '\n' then ['\\', 'n']
    else if c = '\r' then ['\\', 'r']
    else if c = '\t' then ['\\', 't']
    else if c = '\x08' then ['\\', 'b']
    else if c = '\x0c' then ['\\', 'f']
    else if ' ' ≤ c ∧ c ≤ '~' then [c]
    else if c.toNat < 0x10000 then unitEscape c.toNat
    else
      unitEscape (0xD800 + (c.toNat - 0x10000) / 0x400) ++
        unitEscape (0xDC00 + (c.toNat - 0x10000) % 0x400)

def stringText (t : Text) : List Char := '"' :: t.flatMap pointText ++ ['"']

def floatText (x : Binary64) : List Char :=
  if x.isNaN then "NaN".toList
  else if x.isInfinite then if x.isNegative then "-Infinity".toList else "Infinity".toList
  else x.text

mutual

def Value.toJson : Value → List Char
  | .null => "null".toList
  | .bool b => if b then "true".toList else "false".toList
  | .int n => Numeral.ofInt n
  | .float x => floatText x
  | .string t => stringText t
  | .array vs => '[' :: itemsText vs ++ [']']
  | .object fs => '{' :: fieldsText fs ++ ['}']

/-- The items with commas between them. -/
def itemsText : List Value → List Char
  | [] => []
  | v :: vs => v.toJson ++ (if vs.isEmpty then [] else ',' :: ' ' :: itemsText vs)

/-- The fields with commas between them. -/
def fieldsText : List (Text × Value) → List Char
  | [] => []
  | (name, v) :: fs =>
    stringText name ++ ':' :: ' ' :: v.toJson ++
      (if fs.isEmpty then [] else ',' :: ' ' :: fieldsText fs)

end

end Json
end GoldenCheck
