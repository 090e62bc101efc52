import GoldenCheck.CommandLine.Usage
import GoldenCheck.Text.Digit

/-!
What each argument is, told from the argument alone: an option, maybe abbreviated or with a value
after an equals sign, an option that is not known, or a plain word. The first `--` makes words of all
that follows.
-/

namespace GoldenCheck
namespace CommandLine

variable {κ : Type}

inductive Slot (κ : Type) where
  | word (t : Text)
  | separator
  /-- An option, whether by its letter, and the value attached to it. -/
  | option (o : Opt κ) (byLetter : Bool) (attached : Option Text)
  | unknown (t : Text)

def dash : CodePoint := .char '-'

def separatorText : Text := [dash, dash]

/-- The texts before and after the first `p`. -/
def cutAt (p : CodePoint) : Text → Option (Text × Text)
  | [] => none
  | q :: t => if q = p then some ([], t) else (cutAt p t).map fun c => (q :: c.1, c.2)

/-- The option with the letter `p`. -/
def byLetter? (opts : List (Opt κ)) (p : CodePoint) : Option (Opt κ) :=
  opts.find? fun o => o.short? = some p

/-- The option that a text spells in full, and whether by its letter. -/
def spelled? (opts : List (Opt κ)) (t : Text) : Option (Opt κ × Bool) :=
  match opts.find? fun o => o.long = t with
  | some o => some (o, false)
  | none =>
    match t with
    | [d, p] => if d = dash then (byLetter? opts p).map fun o => (o, true) else none
    | _ => none

/-- The option that the text before an equals sign spells, and the text after it. -/
def withValue? (opts : List (Opt κ)) (t : Text) : Option (Slot κ) :=
  match cutAt (.char '=') t with
  | none => none
  | some (name, value) => (spelled? opts name).map fun o => .option o.1 o.2 (some value)

/-- The long options that a text abbreviates, a value after an equals sign apart. -/
def abbreviated (opts : List (Opt κ)) (t : Text) : List (Slot κ × Text) :=
  match cutAt (.char '=') t with
  | none => (opts.filter fun o => t.isPrefixOf o.long).map fun o => (.option o false none, o.long)
  | some (name, value) =>
    (opts.filter fun o => name.isPrefixOf o.long).map fun o => (.option o false (some value), o.long)

/-- The readings of a text as an abbreviated option, or as a letter with more text after it. -/
def readings (opts : List (Opt κ)) (t : Text) : List (Slot κ × Text) :=
  match t with
  | _ :: p :: rest =>
    if p = dash then abbreviated opts t
    else ((byLetter? opts p).map fun o => (Slot.option o true (some rest), [dash, p])).toList
  | _ => []

def isDigitPoint (p : CodePoint) : Bool := (digitValue? p.toNat).isSome

/-- A text without a line feed at its end. -/
def withoutFinalNewline : Text → Text
  | [] => []
  | [p] => if p = .char '\n' then [] else [p]
  | p :: t => p :: withoutFinalNewline t

/-- A minus sign, then digits or digits with a point before the last of them. -/
def isNegativeNumber : Text → Bool
  | [] => false
  | d :: t =>
    d = dash &&
      match (withoutFinalNewline t).dropWhile isDigitPoint with
      | [] => !(withoutFinalNewline t).isEmpty
      | p :: fraction => p = .char '.' && !fraction.isEmpty && fraction.all isDigitPoint

/-- An argument that starts with a dash and spells no option. -/
def undeclared (t : Text) : Slot κ :=
  if isNegativeNumber t || t.contains (.char ' ') then .word t else .unknown t

/-- An argument before the separator. -/
def classify (opts : List (Opt κ)) (t : Text) : Except UsageError (Slot κ) :=
  if t.head? ≠ some dash then .ok (.word t)
  else
    match spelled? opts t with
    | some o => .ok (.option o.1 o.2 none)
    | none =>
      if t = [dash] then .ok (.word t)
      else
        match withValue? opts t with
        | some slot => .ok slot
        | none =>
          match readings opts t with
          | [] => .ok (undeclared t)
          | [r] => .ok r.1
          | rs => .error (.ambiguous t (rs.map Prod.snd))

def slots (opts : List (Opt κ)) : List Text → Except UsageError (List (Slot κ))
  | [] => .ok []
  | t :: ts =>
    if t = separatorText then .ok (.separator :: ts.map .word)
    else
      match classify opts t, slots opts ts with
      | .error e, _ => .error e
      | .ok _, .error e => .error e
      | .ok s, .ok ss => .ok (s :: ss)

end CommandLine
end GoldenCheck
