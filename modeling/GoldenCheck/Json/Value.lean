import GoldenCheck.Number.Binary64

/-! JSON values. An object keeps its names in the order in which they first came. -/

namespace GoldenCheck
namespace Json

inductive Value where
  | null
  | bool (b : Bool)
  | int (n : Int)
  | float (x : Binary64)
  | string (t : Text)
  | array (items : List Value)
  | object (fields : List (Text × Value))

abbrev Fields := List (Text × Value)

namespace Fields

/-- A new name goes to the end; a known one keeps its place and takes the new value. -/
def insert (name : Text) (value : Value) : Fields → Fields
  | [] => [(name, value)]
  | (n, v) :: fs => if n = name then (n, value) :: fs else (n, v) :: insert name value fs

/-- The fields after all pairs have been inserted in order. -/
def ofPairs (pairs : List (Text × Value)) : Fields :=
  pairs.foldl (fun fs p => insert p.1 p.2 fs) []

def get? (name : Text) : Fields → Option Value
  | [] => none
  | (n, v) :: fs => if n = name then some v else get? name fs

end Fields

namespace Value

/-- Whether a value is null, false, a zero or empty, and so counts as no choice where one is looked
up. -/
def isVoid : Value → Bool
  | .null => true
  | .bool b => !b
  | .int n => n = 0
  | .float x => x.isZero
  | .string t => t.isEmpty
  | .array vs => vs.isEmpty
  | .object fs => fs.isEmpty

/-- The name of a value's type in messages. -/
def typeName : Value → String
  | .null => "NoneType"
  | .bool _ => "bool"
  | .int _ => "int"
  | .float _ => "float"
  | .string _ => "str"
  | .array _ => "list"
  | .object _ => "dict"

end Value
end Json
end GoldenCheck
