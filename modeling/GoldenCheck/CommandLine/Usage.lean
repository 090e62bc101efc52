import GoldenCheck.Text.Quoted

/-! Options of a command line and the errors in its use. -/

namespace GoldenCheck
namespace CommandLine

/-- An option: a flag, with a one-letter form or without, or an option that takes a value. -/
inductive Opt (κ : Type) where
  | flag (key : κ) (short : Option CodePoint) (long : Text)
  | valued (key : κ) (long : Text)

namespace Opt

variable {κ : Type}

def key : Opt κ → κ
  | .flag k _ _ => k
  | .valued k _ => k

def long : Opt κ → Text
  | .flag _ _ l => l
  | .valued _ l => l

def short? : Opt κ → Option CodePoint
  | .flag _ s _ => s
  | .valued _ _ => none

/-- All forms of the option, as messages name it. -/
def label (o : Opt κ) : Text :=
  match o.short? with
  | some p => .char '-' :: p :: "/" ++ o.long
  | none => o.long

end Opt

inductive UsageError where
  | ambiguous (given : Text) (candidates : List Text)
  | expectedArgument (option : Text)
  | ignoredArgument (option : Text) (value : Text)
  | invalidInteger (argument : Text) (value : Text)
  | unrecognized (arguments : List Text)
deriving DecidableEq

def UsageError.message : UsageError → Text
  | .ambiguous given candidates =>
    "ambiguous option: " ++ given ++ " could match " ++ Text.join ", " candidates
  | .expectedArgument option => "argument " ++ option ++ ": expected one argument"
  | .ignoredArgument option value =>
    "argument " ++ option ++ ": ignored explicit argument " ++ value.quoted
  | .invalidInteger argument value =>
    "argument " ++ argument ++ ": invalid int value: " ++ value.quoted
  | .unrecognized arguments => "unrecognized arguments: " ++ Text.join " " arguments

end CommandLine
end GoldenCheck
