import GoldenCheck.Text.Utf8

/-!
Paths as they are written and shown: an anchor and parts. Empty parts and parts `.` are dropped when a
path is read; `..` stays, since only the file system knows where it leads.
-/

namespace GoldenCheck

/-- What stands before the first part: nothing, one slash, or exactly two, which are kept apart. -/
inductive Anchor where
  | relative
  | slash
  | doubleSlash
deriving DecidableEq

structure Path where
  anchor : Anchor
  parts : List Text
deriving DecidableEq

namespace Path

def slash : CodePoint := .char '/'

/-- The texts between the slashes. -/
def splitSlashes : Text → List Text
  | [] => [[]]
  | p :: t =>
    if p = slash then [] :: splitSlashes t
    else
      match splitSlashes t with
      | [] => [[p]]
      | s :: ss => (p :: s) :: ss

def anchorOf (t : Text) : Anchor :=
  match (t.takeWhile (· = slash)).length with
  | 0 => .relative
  | 2 => .doubleSlash
  | _ => .slash

def ofText (t : Text) : Path :=
  { anchor := anchorOf t
    parts := (splitSlashes t).filter fun s => s ≠ [] ∧ s ≠ [.char '.'] }

def anchorText : Anchor → Text
  | .relative => []
  | .slash => [slash]
  | .doubleSlash => [slash, slash]

def toText (p : Path) : Text :=
  if p.anchor = .relative ∧ p.parts = [] then [.char '.']
  else anchorText p.anchor ++ Text.join [slash] p.parts

/-- The path of an entry of the directory `p`. -/
def child (p : Path) (name : Text) : Path := { p with parts := p.parts ++ [name] }

/-- The last part. -/
def name (p : Path) : Text := p.parts.getLast?.getD []

end Path
end GoldenCheck
