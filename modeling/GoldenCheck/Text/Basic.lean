/-!
Text as the program sees it: a list of Unicode code points. A JSON escape or an undecodable file name
can put one half of a surrogate pair into a text, which `Char` excludes, so a code point is a
character or such a half.
-/

namespace GoldenCheck

/-- A character, or the half of a surrogate pair with the code point `0xD800 + offset`. -/
inductive CodePoint where
  | char (c : Char)
  | surrogate (offset : Fin 0x800)
deriving DecidableEq

namespace CodePoint

def toNat : CodePoint → Nat
  | .char c => c.toNat
  | .surrogate k => 0xD800 + k.val

/-- The code point with the number `n`, for `n` up to 0x10FFFF. -/
def ofNat (n : Nat) : CodePoint :=
  if h : 0xD800 ≤ n ∧ n < 0xE000 then .surrogate ⟨n - 0xD800, by omega⟩ else .char (Char.ofNat n)

def isSurrogate : CodePoint → Bool
  | .char _ => false
  | .surrogate _ => true

end CodePoint

abbrev Text := List CodePoint

namespace Text

def ofChars (cs : List Char) : Text := cs.map .char

def ofString (s : String) : Text := ofChars s.toList

instance : Coe String Text := ⟨ofString⟩

/-- Code point order, shorter texts first among texts that agree as far as they go. -/
def le : Text → Text → Bool
  | [], _ => true
  | _ :: _, [] => false
  | a :: s, b :: t => a.toNat < b.toNat || (a.toNat == b.toNat && le s t)

/-- Puts `x` before the first element whose key is not below its own. -/
def insertBy {α : Type} (key : α → Text) (x : α) : List α → List α
  | [] => [x]
  | y :: ys => if le (key x) (key y) then x :: y :: ys else y :: insertBy key x ys

/-- The elements in code point order of their keys, elements of one key in the order given. -/
def sortBy {α : Type} (key : α → Text) : List α → List α
  | [] => []
  | x :: xs => insertBy key x (sortBy key xs)

/-- The texts with `sep` between each two. -/
def join (sep : Text) : List Text → Text
  | [] => []
  | [t] => t
  | t :: ts => t ++ sep ++ join sep ts

/-- The characters, for a text that has no lone surrogate half. -/
def chars? : Text → Option (List Char)
  | [] => some []
  | .char c :: t => (chars? t).map (c :: ·)
  | .surrogate _ :: _ => none

end Text

end GoldenCheck
