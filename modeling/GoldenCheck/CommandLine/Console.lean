import GoldenCheck.CommandLine.Usage
import GoldenCheck.Fault

/-!
What a command shows and how it ends. The output is taken to be strict UTF-8: a line that has no
encoding, because of a surrogate, is a fault. The error output shows such a line all the same.
-/

namespace GoldenCheck

/-- The text printed by a computation, and its result. What is printed before a fault stays. -/
structure Transcript (α : Type) where
  printed : Text
  result : Except Fault α

namespace Transcript

variable {α β : Type}

def ofExcept (r : Except Fault α) : Transcript α := ⟨[], r⟩

def andThen (x : Transcript α) (f : α → Transcript β) : Transcript β :=
  match x.result with
  | .error e => ⟨x.printed, .error e⟩
  | .ok a => ⟨x.printed ++ (f a).printed, (f a).result⟩

instance : Monad Transcript where
  pure a := ⟨[], .ok a⟩
  bind := andThen

/-- Prints a line, or nothing of it if it has no encoding. -/
def printLine (t : Text) : Transcript Unit :=
  match Utf8.encodeError? t with
  | none => ⟨t ++ [.char '\n'], .ok ()⟩
  | some e => ⟨[], .error (.unencodable e)⟩

def printLines : List Text → Transcript Unit
  | [] => pure ()
  | t :: ts => do
    printLine t
    printLines ts

end Transcript

inductive Ending where
  | returned (status : Nat)
  | exited (status : Nat)
  | failed (fault : Fault)
deriving DecidableEq

structure Console where
  out : Text
  err : Text
  ending : Ending
deriving DecidableEq

namespace Console

/-- A computation that ends in a status. -/
def ofTranscript (x : Transcript Nat) : Console :=
  { out := x.printed
    err := []
    ending := match x.result with
      | .ok status => .returned status
      | .error e => .failed e }

/-- The texts of a command: its name, its usage line and what its help adds. -/
structure Manual where
  program : Text
  usage : Text
  body : Text

/-- Error output shows surrogate halves by their numbers. -/
def errorText (t : Text) : Text :=
  t.flatMap fun p => if p.isSurrogate then Text.ofChars (Text.numberEscape p.toNat) else [p]

def help (m : Manual) : Console := ⟨m.usage ++ m.body, [], .exited 0⟩

def misuse (m : Manual) (e : CommandLine.UsageError) : Console :=
  ⟨[], errorText (m.usage ++ m.program ++ ": error: " ++ e.message ++ "\n"), .exited 2⟩

/-- The console of a command that is run as a program: its status is the exit status. -/
def asProgram (c : Console) : Console :=
  match c.ending with
  | .returned status => { c with ending := .exited status }
  | _ => c

end Console
end GoldenCheck
