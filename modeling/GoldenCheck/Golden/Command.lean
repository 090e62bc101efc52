import GoldenCheck.CommandLine.Scan
import GoldenCheck.Golden.Run

/-! The command that lists, runs or rebuilds golden cases. -/

namespace GoldenCheck
namespace Golden

open CommandLine

inductive GoldenOption where
  | help
  | dir
  | entry
  | rebuild
  | list
deriving DecidableEq

def goldenOptions : List (Opt GoldenOption) :=
  [.flag .help (some (.char 'h')) "--help", .valued .dir "--dir", .valued .entry "--entry",
    .flag .rebuild none "--rebuild", .flag .list none "--list"]

def goldenManual : Console.Manual :=
  { program := "golden.py"
    usage := "usage: golden.py [-h] [--dir DIR] [--entry ENTRY] [--rebuild] [--list] [case]\n"
    body := "\nGolden output runner\n\npositional arguments:\n" ++
      "  case           Specific golden case to run\n\noptions:\n" ++
      "  -h, --help     show this help message and exit\n" ++
      "  --dir DIR      Golden case root (default: $GOLDEN_DIR or ./golden)\n" ++
      "  --entry ENTRY  Entry function (default: $GOLDEN_ENTRY_FUNC or config.json)\n" ++
      "  --rebuild      Regenerate expected files\n" ++
      "  --list         List golden cases\n" }

/-- What a command line asks for. -/
structure Request where
  dir : Option Text := none
  entry : Option Text := none
  rebuild : Bool := false
  list : Bool := false
  case : Option Text := none
deriving DecidableEq

def requestStep (r : Request) : Event GoldenOption → Parsed Request
  | .flag .help => .help
  | .flag .rebuild => .proceed { r with rebuild := true }
  | .flag .list => .proceed { r with list := true }
  | .value .dir t => .proceed { r with dir := t }
  | .value .entry t => .proceed { r with entry := t }
  | .words ts => .proceed { r with case := ts.head? }
  | .flag _ | .value _ _ => .proceed r

def parseRequest (args : List Text) : Parsed Request :=
  parse goldenOptions .one requestStep {} args

def Request.root (r : Request) (env : Environment) : Path :=
  match chosen? r.dir with
  | some t => Path.ofText t
  | none => env.root

/-- The name of the entry point to use, once it is known to be one. -/
def Request.entryName (r : Request) (env : Environment) (fs : FileSystem) : Except Fault Text := do
  match chosen? r.entry with
  | some t => (EntryPoint.ofName t).map fun _ => t
  | none =>
    let config ← loadConfig fs (r.root env)
    (EntryPoint.ofValue (entryValue env config)).map Prod.fst

def listCases (fs : FileSystem) (root : Path) : Transcript Nat := do
  let cases ← .ofExcept (findCases fs root)
  Transcript.printLines (cases.map Path.name)
  pure 0

/-- The last line of a run and its status. -/
def summary (root : Path) (results : List CaseResult) : Text × Nat :=
  let failed := (results.filter fun r => !r.passed).map CaseResult.name
  if results = [] then ("ℹ️  No golden cases found in " ++ root.toText, 0)
  else if failed = [] then
    ("✅ All " ++ Numeral.ofNat results.length ++ " golden cases passed", 0)
  else
    ("❌ " ++ Numeral.ofNat failed.length ++ "/" ++ Numeral.ofNat results.length ++
      " golden cases failed: " ++ Text.join ", " failed, 1)

def summarize (root : Path) (results : List CaseResult) : Transcript Nat := do
  Transcript.printLine (summary root results).1
  pure (summary root results).2

/-- Goes on with the result of a computation; a fault that is reported becomes a line and status 1. -/
def reporting {α : Type} (x : Transcript α) (next : α → Transcript Nat) : Transcript Nat :=
  match x.result with
  | .ok a => ⟨x.printed ++ (next a).printed, (next a).result⟩
  | .error f =>
    if f.isReported then
      let line := do
        Transcript.printLine ("❌ " ++ f.message)
        pure 1
      ⟨x.printed ++ line.printed, line.result⟩
    else ⟨x.printed, .error f⟩

def perform (env : Environment) (fs : FileSystem) (r : Request) : FileSystem × Transcript Nat :=
  let root := r.root env
  if r.list then (fs, listCases fs root)
  else
    match r.entryName env fs with
    | .error f => (fs, reporting (.ofExcept (.error f)) pure)
    | .ok name =>
      if r.rebuild then
        let rebuilt := rebuildAll fs root root.toText name r.case
        (rebuilt.1, reporting rebuilt.2 fun _ => pure 0)
      else (fs, reporting (runAll fs root root.toText name r.case) (summarize root))

def goldenCommand (env : Environment) (fs : FileSystem) (args : List Text) : FileSystem × Console :=
  match parseRequest args with
  | .help => (fs, Console.help goldenManual)
  | .misuse e => (fs, Console.misuse goldenManual e)
  | .proceed r => ((perform env fs r).1, Console.ofTranscript (perform env fs r).2)

end Golden
end GoldenCheck
