import GoldenCheck.CommandLine.Slot

/-!
What a command line asks for, in order: options with their values, and one group of words. The group
is the first run of words that no option takes as its value; words after it are left over.
-/

namespace GoldenCheck
namespace CommandLine

variable {κ : Type}

inductive Event (κ : Type) where
  | flag (key : κ)
  | value (key : κ) (t : Option Text)
  | words (ts : List Text)

/-- How many words the group takes. -/
inductive Capacity where
  | one
  | many
deriving DecidableEq

/-- What a command line asks for up to a failure, if there is one, and the arguments left over. -/
structure Scan (κ : Type) where
  events : List (Event κ)
  failure : Option UsageError
  extras : List Text

namespace Scan

def fail (e : UsageError) : Scan κ := ⟨[], some e, []⟩

def prepend (es : List (Event κ)) (s : Scan κ) : Scan κ := { s with events := es ++ s.events }

def leaveOver (t : Text) (s : Scan κ) : Scan κ := { s with extras := t :: s.extras }

end Scan

/-- The flags of an option's letter and of the letters bundled with it. -/
def bundle (opts : List (Opt κ)) (o : Opt κ) : Text → Except UsageError (List (Event κ))
  | [] => .ok [.flag o.key]
  | p :: t =>
    match byLetter? opts p with
    | none => .error (.ignoredArgument o.label (p :: t))
    | some next =>
      match bundle opts next t with
      | .ok es => .ok (.flag o.key :: es)
      | .error e => .error e

/-- A value that is just the separator counts as none. -/
def attachedValue (t : Text) : Option Text := if t = separatorText then none else some t

/-- The group of words so far, or `none` once it is closed. -/
abbrev Group := Option (List Text)

/-- An option ends the run of words before it: what the group then asks for. -/
def Group.closing : Group → List (Event κ)
  | some (t :: ts) => [.words (t :: ts)]
  | _ => []

/-- The group after an option: closed, unless it has no word yet. -/
def Group.closed : Group → Group
  | some [] => some []
  | _ => none

def Group.hasRoom (capacity : Capacity) (ts : List Text) : Bool :=
  capacity = .many || ts.isEmpty

def scan (opts : List (Opt κ)) (capacity : Capacity) : Group → List (Slot κ) → Scan κ
  | some ts, [] => ⟨[.words ts], none, []⟩
  | none, [] => ⟨[], none, []⟩
  | some ts, .word t :: rest =>
    if Group.hasRoom capacity ts then scan opts capacity (some (ts ++ [t])) rest
    else ((scan opts capacity none rest).leaveOver t).prepend [.words ts]
  | none, .word t :: rest => (scan opts capacity none rest).leaveOver t
  | some ts, .separator :: rest => scan opts capacity (some ts) rest
  | none, .separator :: rest => (scan opts capacity none rest).leaveOver separatorText
  | g, .unknown t :: rest =>
    ((scan opts capacity g.closed rest).leaveOver t).prepend g.closing
  | g, .option (.valued k _) _ (some t) :: rest =>
    (scan opts capacity g.closed rest).prepend (g.closing ++ [.value k (attachedValue t)])
  | g, .option (.valued k _) _ none :: .word t :: rest =>
    (scan opts capacity g.closed rest).prepend (g.closing ++ [.value k (some t)])
  | g, .option (.valued k l) _ none :: _ =>
    (Scan.fail (.expectedArgument (Opt.valued k l).label)).prepend g.closing
  | g, .option (.flag k _ _) _ none :: rest =>
    (scan opts capacity g.closed rest).prepend (g.closing ++ [.flag k])
  | g, .option (.flag k s l) byLetter (some t) :: rest =>
    if byLetter && !t.isEmpty then
      match bundle opts (.flag k s l) t with
      | .ok es => (scan opts capacity g.closed rest).prepend (g.closing ++ es)
      | .error e => (Scan.fail e).prepend g.closing
    else (Scan.fail (.ignoredArgument (Opt.flag k s l).label t)).prepend g.closing

/-- What a command line comes to: a request, a call for help, or an error. -/
inductive Parsed (α : Type) where
  | proceed (a : α)
  | help
  | misuse (e : UsageError)

/-- Takes in the events one after the other, up to the first that stops. -/
def Parsed.fold {α : Type} (step : α → Event κ → Parsed α) : α → List (Event κ) → Parsed α
  | a, [] => .proceed a
  | a, e :: es =>
    match step a e with
    | .proceed a => fold step a es
    | stop => stop

/-- Failures come after the events before them, leftovers last. -/
def Parsed.ofScan {α : Type} (step : α → Event κ → Parsed α) (start : α) (s : Scan κ) : Parsed α :=
  match Parsed.fold step start s.events with
  | .proceed a =>
    match s.failure with
    | some e => .misuse e
    | none => if s.extras = [] then .proceed a else .misuse (.unrecognized s.extras)
  | stop => stop

def parse {α : Type} (opts : List (Opt κ)) (capacity : Capacity) (step : α → Event κ → Parsed α)
    (start : α) (args : List Text) : Parsed α :=
  match slots opts args with
  | .error e => .misuse e
  | .ok ss => .ofScan step start (scan opts capacity (some []) ss)

end CommandLine
end GoldenCheck
