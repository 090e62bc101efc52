import GoldenCheck.CommandLine.Console
import GoldenCheck.Golden.Case

/-! Running and rebuilding the cases of a root one after the other, with a line about each. -/

namespace GoldenCheck
namespace Golden

def verdictLine (r : CaseResult) : Text :=
  "Running test case '" ++ r.name ++ "': " ++ (if r.passed then "OK" else "FAIL")

def missingLine (case : Path) : Text :=
  "ℹ️  No " ++ expectedFile ++ " file in " ++ case.toText ++ " (run with --rebuild)"

def resultLines (case : Path) (r : CaseResult) : List Text :=
  if r.expected = none then [verdictLine r, missingLine case] else [verdictLine r]

def runCases (fs : FileSystem) (name : Text) : List Path → Transcript (List CaseResult)
  | [] => pure []
  | c :: cs => do
    let r ← .ofExcept (runCase fs c name)
    Transcript.printLines (resultLines c r)
    let rs ← runCases fs name cs
    pure (r :: rs)

/-- Runs the cases of a root, or the one that is named. -/
def runAll (fs : FileSystem) (root : Path) (shown : Text) (name : Text) (case : Option Text) :
    Transcript (List CaseResult) := do
  runCases fs name (← .ofExcept (selectCases fs root shown case))

def rebuiltLine (case : Path) : Text := "✅ Rebuilt " ++ (case.child expectedFile).toText

/-- Rebuilds cases in order, each in the file system that the one before left. What was written
before a fault stays. -/
def rebuildCases (name : Text) : FileSystem → List Path → FileSystem × Transcript (List Text)
  | fs, [] => (fs, pure [])
  | fs, c :: cs =>
    match rebuildCase fs c name with
    | .error f => (fs, .ofExcept (.error f))
    | .ok (_, fs) =>
      match (Transcript.printLine (rebuiltLine c)).result with
      | .error f => (fs, .ofExcept (.error f))
      | .ok _ =>
        let rest := rebuildCases name fs cs
        (rest.1, do
          Transcript.printLine (rebuiltLine c)
          let names ← rest.2
          pure (c.name :: names))

/-- Rebuilds the cases of a root, or the one that is named; returns their names. -/
def rebuildAll (fs : FileSystem) (root : Path) (shown : Text) (name : Text) (case : Option Text) :
    FileSystem × Transcript (List Text) :=
  match selectCases fs root shown case with
  | .error f => (fs, .ofExcept (.error f))
  | .ok cases => rebuildCases name fs cases

end Golden
end GoldenCheck
