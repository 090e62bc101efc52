import GoldenCheck.CommandLine.Console
import GoldenCheck.CommandLine.Scan
import GoldenCheck.Prime.Verdict

/-! The command that describes the numbers given to it. -/

namespace GoldenCheck
namespace Prime

open CommandLine

inductive NumbersOption where
  | help
deriving DecidableEq

def numbersOptions : List (Opt NumbersOption) := [.flag .help (some (.char 'h')) "--help"]

def numbersManual : Console.Manual :=
  { program := "small_prime.py"
    usage := "usage: small_prime.py [-h] [numbers ...]\n"
    body := "\nCheck small numbers for primality\n\npositional arguments:\n" ++
      "  numbers     Numbers to check (default: 0..11)\n\noptions:\n" ++
      "  -h, --help  show this help message and exit\n" }

/-- The integers that words are read as, or the first word that is none. -/
def readNumbers : List Text → Parsed (List Int)
  | [] => .proceed []
  | t :: ts =>
    match Numeral.read? t with
    | none => .misuse (.invalidInteger "numbers" t)
    | some n =>
      match readNumbers ts with
      | .proceed ns => .proceed (n :: ns)
      | stop => stop

def numbersStep (ns : List Int) : Event NumbersOption → Parsed (List Int)
  | .flag .help => .help
  | .value .help _ => .proceed ns
  | .words ts => readNumbers ts

def parseNumbers (args : List Text) : Parsed (List Int) :=
  parse numbersOptions .many numbersStep [] args

/-- The numbers that are described if none is given: all that are checked and one more. -/
def defaultNumbers : List Int := (List.range (domainMax + 2)).map Int.ofNat

def describeAll (ns : List Int) : Transcript Nat := do
  Transcript.printLines (ns.map describe)
  pure 0

def numbersCommand (args : List Text) : Console :=
  match parseNumbers args with
  | .help => Console.help numbersManual
  | .misuse e => Console.misuse numbersManual e
  | .proceed ns => Console.ofTranscript (describeAll (if ns = [] then defaultNumbers else ns))

end Prime
end GoldenCheck
