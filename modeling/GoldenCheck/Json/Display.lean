import GoldenCheck.Json.Value
import GoldenCheck.Number.Shortest
import GoldenCheck.Text.Quoted

/-!
The text of a value in messages: strings quoted, arrays in brackets, objects in braces. A value that
holds an integer with too many digits has none.
-/

namespace GoldenCheck
namespace Json

mutual

def Value.display? : Value → Option Text
  | .null => some "None"
  | .bool b => some (if b then "True" else "False")
  | .int n => (Numeral.ofInt? n).map Text.ofChars
  | .float x => some (Text.ofChars x.text)
  | .string t => some t.quoted
  | .array vs => (displayItems? vs).map fun ts => "[" ++ Text.join ", " ts ++ "]"
  | .object fs => (displayFields? fs).map fun ts => "\x7b" ++ Text.join ", " ts ++ "\x7d"

def displayItems? : List Value → Option (List Text)
  | [] => some []
  | v :: vs =>
    match v.display?, displayItems? vs with
    | some t, some ts => some (t :: ts)
    | _, _ => none

def displayFields? : List (Text × Value) → Option (List Text)
  | [] => some []
  | (name, v) :: fs =>
    match v.display?, displayFields? fs with
    | some t, some ts => some ((name.quoted ++ ": " ++ t) :: ts)
    | _, _ => none

end

end Json
end GoldenCheck
