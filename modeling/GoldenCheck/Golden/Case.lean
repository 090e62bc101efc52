import GoldenCheck.Golden.Config

/-!
Golden cases: directories of a root that hold an inputs file. A case renders one line for each input,
which is compared with its expected file or becomes that file.
-/

namespace GoldenCheck
namespace Golden

def inputsFile : Text := "inputs.json"

def expectedFile : Text := "expected"

/-! ## Finding cases -/

def isCase (fs : FileSystem) (p : Path) : Except Fault Bool := do
  if ← fs.isFolder p then fs.present (p.child inputsFile) else .ok false

/-- Those of the paths that are cases. -/
def keepCases (fs : FileSystem) : List Path → Except Fault (List Path)
  | [] => .ok []
  | p :: ps => do
    let keep ← isCase fs p
    let rest ← keepCases fs ps
    .ok (if keep then p :: rest else rest)

def entriesOf (fs : FileSystem) (root : Path) : Except Fault (List Path) :=
  match fs.list root with
  | .error r => .error (.refused r root.toText)
  | .ok names => .ok (names.map fun n => root.child (Utf8.decodeSystem n))

/-- The cases of a root, sorted by name; a root that is no directory has none. -/
def findCases (fs : FileSystem) (root : Path) : Except Fault (List Path) := do
  if ← fs.isFolder root then
    let cases ← keepCases fs (← entriesOf fs root)
    .ok (Text.sortBy Path.name cases)
  else .ok []

/-- All cases of a root, or the one with the given name. `shown` is the root as messages show it. -/
def selectCases (fs : FileSystem) (root : Path) (shown : Text) (name : Option Text) :
    Except Fault (List Path) := do
  let cases ← findCases fs root
  match name with
  | none => .ok cases
  | some n =>
    match cases.filter fun c => c.name = n with
    | [] => .error (.unknownCase n shown)
    | selected => .ok selected

/-! ## Inputs and output -/

/-- The integers of a list that holds nothing else. -/
def integers? : List Json.Value → Option (List Int)
  | [] => some []
  | .int n :: vs => (integers? vs).map (n :: ·)
  | _ :: _ => none

def inputsOf (path : Text) : Json.Value → Except Fault (List Int)
  | .array vs =>
    match integers? vs with
    | some xs => .ok xs
    | none => .error (.inputsNotIntegers path)
  | _ => .error (.inputsNotIntegers path)

def loadInputs (fs : FileSystem) (case : Path) : Except Fault (List Int) := do
  inputsOf (case.child inputsFile).toText (← fs.readJson (case.child inputsFile))

/-- The text of the expected file, if there is one. -/
def loadExpected (fs : FileSystem) (case : Path) : Except Fault (Option Text) := do
  if ← fs.present (case.child expectedFile) then
    let t ← fs.readText (case.child expectedFile)
    .ok (some (Text.ofChars t))
  else .ok none

/-- One line of output. The input is put into words before it is checked. -/
def renderLine (label : Text) (entry : EntryPoint) (a : Json.Value) : Except Fault Text :=
  match a.display? with
  | none => .error .numeralTooLong
  | some shown =>
    match Prime.integer a with
    | .error f => .error f
    | .ok n =>
      .ok (label ++ "(" ++ shown ++ ") = " ++ Text.ofChars (Numeral.ofInt (entry.apply n)) ++ "\n")

def render (label : Text) (entry : EntryPoint) : List Json.Value → Except Fault Text
  | [] => .ok []
  | a :: as => do
    let line ← renderLine label entry a
    let rest ← render label entry as
    .ok (line ++ rest)

/-- The output of a case under the entry point called `name`. -/
def output (fs : FileSystem) (case : Path) (name : Text) : Except Fault Text := do
  let entry ← EntryPoint.ofName name
  let inputs ← loadInputs fs case
  render name entry (inputs.map .int)

/-! ## Running and rebuilding -/

structure CaseResult where
  name : Text
  passed : Bool
  actual : Text
  expected : Option Text
deriving DecidableEq

def runCase (fs : FileSystem) (case : Path) (name : Text) : Except Fault CaseResult := do
  let actual ← output fs case name
  let expected ← loadExpected fs case
  .ok ⟨case.name, expected = some actual, actual, expected⟩

/-- Makes the output of a case its expected file. -/
def rebuildCase (fs : FileSystem) (case : Path) (name : Text) :
    Except Fault (Text × FileSystem) := do
  let text ← output fs case name
  match Utf8.encode text with
  | .error e => .error (.unencodable e)
  | .ok content =>
    match fs.writeFile (case.child expectedFile) content with
    | .error r => .error (.refused r (case.child expectedFile).toText)
    | .ok fs => .ok (text, fs)

end Golden
end GoldenCheck
