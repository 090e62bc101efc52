import GoldenCheck.Json.Value
import GoldenCheck.Number.DecimalText

/-!
Reading JSON text. Each reader takes a value off the front of the text and returns the rest; a
failure tells how many characters were left where it arose, from which its place in the text
follows. The nesting of arrays and objects is bounded, and the bound is what the recursion runs on.
-/

namespace GoldenCheck
namespace Json

/-- What is wrong with a text that is not JSON. -/
inductive Problem where
  | byteOrderMark
  | expectedValue
  | expectedName
  | expectedColon
  | expectedComma
  | unterminatedString
  | controlCharacter
  | badEscape
  | badNumberEscape
  | extraData
deriving DecidableEq

inductive Container where
  | array
  | object
deriving DecidableEq

/-- Why reading stopped; `left` counts the characters from the place of the problem on. -/
inductive Stop where
  | malformed (problem : Problem) (left : Nat)
  | integerTooLong (digits : Nat)
  | nestedTooDeeply (container : Container)
deriving DecidableEq

/-- A value taken off the front of a text, and the rest of the text. -/
abbrev Read (α : Type) := Except Stop (α × List Char)

def isSpace (c : Char) : Bool := c = ' ' || c = '\t' || c = '\n' || c = '\r'

def skipSpace (s : List Char) : List Char := s.dropWhile isSpace

/-- The rest of a text that starts with `word`. -/
def after? : (word : List Char) → List Char → Option (List Char)
  | [], s => some s
  | _ :: _, [] => none
  | w :: word, c :: s => if w = c then after? word s else none

/-! ## Strings -/

def hexValue? (c : Char) : Option Nat :=
  if '0' ≤ c ∧ c ≤ '9' then some (c.toNat - '0'.toNat)
  else if 'a' ≤ c ∧ c ≤ 'f' then some (c.toNat - 'a'.toNat + 10)
  else if 'A' ≤ c ∧ c ≤ 'F' then some (c.toNat - 'A'.toNat + 10)
  else none

/-- The number of four hexadecimal digits. -/
def hexNumber? (a b c d : Char) : Option Nat :=
  match hexValue? a, hexValue? b, hexValue? c, hexValue? d with
  | some a, some b, some c, some d => some (((a * 16 + b) * 16 + c) * 16 + d)
  | _, _, _, _ => none

/-- What a backslash and a letter stand for. -/
def escaped? (c : Char) : Option Char :=
  if c = '"' ∨ c = '\\' ∨ c = '/' then some c
  else if c = 'b' then some '\x08'
  else if c = 'f' then some '\x0c'
  else if c = 'n' then some '\n'
  else if c = 'r' then some '\r'
  else if c = 't' then some '\t'
  else none

def consPoint (p : CodePoint) : Read Text → Read Text
  | .ok (t, s) => .ok (p :: t, s)
  | .error e => .error e

/-- The code points up to the closing quote, one for each escape. The opening quote had `opening`
characters from it on. A numeric escape needs a character after its four digits. -/
def stringBody (opening : Nat) : List Char → Read Text
  | [] => .error (.malformed .unterminatedString opening)
  | c :: s =>
    if c = '"' then .ok ([], s)
    else if c = '\\' then
      match s with
      | [] => .error (.malformed .unterminatedString opening)
      | e :: t =>
        if e = 'u' then
          match t with
          | w :: x :: y :: z :: r =>
            match hexNumber? w x y z with
            | some n =>
              if r.isEmpty then .error (.malformed .badNumberEscape s.length)
              else consPoint (.ofNat n) (stringBody opening r)
            | none => .error (.malformed .badNumberEscape s.length)
          | _ => .error (.malformed .badNumberEscape s.length)
        else
          match escaped? e with
          | some d => consPoint (.char d) (stringBody opening t)
          | none => .error (.malformed .badEscape (s.length + 1))
    else if c < ' ' then .error (.malformed .controlCharacter (s.length + 1))
    else consPoint (.char c) (stringBody opening s)

/-- Puts a code point in front of others; a high half before a low half makes one character. -/
def joinPoint (p : CodePoint) (t : Text) : Text :=
  match p, t with
  | .surrogate h, .surrogate l :: r =>
    if h.val < 0x400 ∧ 0x400 ≤ l.val then
      .char (Char.ofNat (0x10000 + h.val * 0x400 + (l.val - 0x400))) :: r
    else p :: t
  | _, _ => p :: t

def joinSurrogates (t : Text) : Text := t.foldr joinPoint []

/-- A string after its opening quote. -/
def string (opening : Nat) (s : List Char) : Read Text :=
  match stringBody opening s with
  | .ok (t, r) => .ok (joinSurrogates t, r)
  | .error e => .error e

/-! ## Numbers and literals -/

/-- A zero, or digits of which the first is none. -/
def wholePart : List Char → Option (List Char × List Char)
  | [] => none
  | c :: s =>
    if c = '0' then some (['0'], s)
    else if c.isDigit then some (c :: s.takeWhile Char.isDigit, s.dropWhile Char.isDigit)
    else none

/-- A minus sign or nothing. -/
def minus : List Char → Bool × List Char
  | '-' :: s => (true, s)
  | s => (false, s)

/-- The longest number at the front: an integer, if it has neither fraction nor exponent. -/
def number (s : List Char) : Read Value :=
  match wholePart (minus s).2 with
  | none => .error (.malformed .expectedValue s.length)
  | some (whole, t) =>
    let (fraction, t) := DecimalText.fraction t
    let (exponent, t) := DecimalText.exponent t
    if fraction.isEmpty && exponent.isNone then
      if whole.length ≤ Numeral.digitLimit then
        .ok (.int (DecimalText.signed (minus s).1 (DecimalText.value whole)), t)
      else .error (.integerTooLong whole.length)
    else .ok (.float (DecimalText.toBinary64 (minus s).1 whole fraction (exponent.getD 0)), t)

def literals : List (String × Value) :=
  [("null", .null), ("true", .bool true), ("false", .bool false), ("NaN", .float .nan),
    ("Infinity", .float .infinity), ("-Infinity", .float Binary64.infinity.neg)]

def literal? (s : List Char) : Option (Value × List Char) :=
  literals.findSome? fun l => (after? l.1.toList s).map fun t => (l.2, t)

/-- A string, a literal or a number. -/
def scalar (s : List Char) : Read Value :=
  match s with
  | '"' :: t =>
    match string s.length t with
    | .ok (x, r) => .ok (.string x, r)
    | .error e => .error e
  | _ =>
    match literal? s with
    | some r => .ok r
    | none => number s

/-! ## Arrays and objects -/

/-- At most `width` items, the first of which starts right here, and the closing bracket. -/
def items (value : List Char → Read Value) : (width : Nat) → List Char → Read (List Value)
  | 0, s => .error (.malformed .expectedComma s.length)
  | width + 1, s =>
    match value s with
    | .error e => .error e
    | .ok (v, s) =>
      match skipSpace s with
      | ']' :: s => .ok ([v], s)
      | ',' :: s =>
        match items value width (skipSpace s) with
        | .ok (vs, s) => .ok (v :: vs, s)
        | .error e => .error e
      | s => .error (.malformed .expectedComma s.length)

/-- An array after its opening bracket. -/
def array (value : List Char → Read Value) (width : Nat) (s : List Char) : Read Value :=
  match skipSpace s with
  | ']' :: s => .ok (.array [], s)
  | s =>
    match items value width s with
    | .ok (vs, s) => .ok (.array vs, s)
    | .error e => .error e

/-- A name, a colon and a value. -/
def field (value : List Char → Read Value) (s : List Char) : Read (Text × Value) :=
  match s with
  | '"' :: t =>
    match string s.length t with
    | .error e => .error e
    | .ok (name, t) =>
      match skipSpace t with
      | ':' :: t =>
        match value (skipSpace t) with
        | .ok (v, t) => .ok ((name, v), t)
        | .error e => .error e
      | t => .error (.malformed .expectedColon t.length)
  | _ => .error (.malformed .expectedName s.length)

/-- At most `width` fields, the first of which starts right here, and the closing brace. -/
def members (value : List Char → Read Value) :
    (width : Nat) → List Char → Read (List (Text × Value))
  | 0, s => .error (.malformed .expectedComma s.length)
  | width + 1, s =>
    match field value s with
    | .error e => .error e
    | .ok (f, s) =>
      match skipSpace s with
      | '}' :: s => .ok ([f], s)
      | ',' :: s =>
        match members value width (skipSpace s) with
        | .ok (fs, s) => .ok (f :: fs, s)
        | .error e => .error e
      | s => .error (.malformed .expectedComma s.length)

/-- An object after its opening brace. -/
def object (value : List Char → Read Value) (width : Nat) (s : List Char) : Read Value :=
  match skipSpace s with
  | '}' :: s => .ok (.object [], s)
  | s =>
    match members value width s with
    | .ok (fs, s) => .ok (.object (Fields.ofPairs fs), s)
    | .error e => .error e

/-- A value with at most `depth` arrays and objects around one another, each of at most `width`
members. -/
def value (width : Nat) : (depth : Nat) → List Char → Read Value
  | 0, s =>
    match s with
    | '[' :: _ => .error (.nestedTooDeeply .array)
    | '{' :: _ => .error (.nestedTooDeeply .object)
    | _ => scalar s
  | depth + 1, s =>
    match s with
    | '[' :: t => array (value width depth) width t
    | '{' :: t => object (value width depth) width t
    | _ => scalar s

/-! ## Documents -/

/-- How deeply arrays and objects may nest. What is limited is the depth of calls, and those that
lead to the reader count too: the true bound is lower by a few, and differs between versions. -/
def nestingLimit : Nat := 1000

/-- A whole text: a value with white space around it. No container of a text has more members than
the text has characters, so that is width enough. -/
def document (depth : Nat) (text : List Char) : Except Stop Value :=
  match text with
  | '\uFEFF' :: _ => .error (.malformed .byteOrderMark text.length)
  | _ =>
    match value text.length depth (skipSpace text) with
    | .error e => .error e
    | .ok (v, rest) =>
      match skipSpace rest with
      | [] => .ok v
      | rest => .error (.malformed .extraData rest.length)

/-- A place in a text: characters before it, its line and its column, both counted from 1. -/
structure Place where
  position : Nat
  line : Nat
  column : Nat
deriving DecidableEq

/-- The place after the characters of `before`. -/
def Place.after (before : List Char) : Place :=
  { position := before.length
    line := before.count '\n' + 1
    column := (before.reverse.takeWhile (· ≠ '\n')).length + 1 }

inductive ReadError where
  | malformed (problem : Problem) (place : Place)
  | integerTooLong (digits : Nat)
  | nestedTooDeeply (container : Container)
deriving DecidableEq

def Stop.toReadError (text : List Char) : Stop → ReadError
  | .malformed problem left => .malformed problem (.after (text.take (text.length - left)))
  | .integerTooLong n => .integerTooLong n
  | .nestedTooDeeply c => .nestedTooDeeply c

def read (text : List Char) : Except ReadError Value :=
  match document nestingLimit text with
  | .ok v => .ok v
  | .error e => .error (e.toReadError text)

end Json
end GoldenCheck
