import GoldenCheck.Text.Basic

/-!
UTF-8. Bytes split into chunks, each a well-formed character or a maximal ill-formed start of one;
the splitting goes byte by byte and keeps the bytes of the sequence that is under way. Strict decoding
refuses the first ill-formed chunk and tells where and why. Encoding refuses surrogate halves. The byte
strings of the operating system, file names and the values of variables, need not be UTF-8: as text
they keep ill-formed bytes as surrogate halves.
-/

namespace GoldenCheck

abbrev Bytes := List UInt8

namespace Utf8

/-- Why bytes are not a character. -/
inductive Flaw where
  | invalidStart
  | invalidContinuation
  | unexpectedEnd
deriving DecidableEq

inductive Chunk where
  | char (c : Char)
  | flawed (bytes : Bytes) (flaw : Flaw)
deriving DecidableEq

def Chunk.bytes : Chunk → Bytes
  | .char c => String.utf8EncodeChar c
  | .flawed bs _ => bs

/-- How many bytes a sequence that starts with `a` has, for `a` from 0xC2 to 0xF4. -/
def sequenceLength (a : UInt8) : Nat :=
  if a < 0xE0 then 2 else if a < 0xF0 then 3 else 4

def isContinuation (b : UInt8) : Bool := 0x80 ≤ b && b < 0xC0

/-- The bytes that may come second after `a`: overlong forms, surrogate halves and numbers past the
last code point already show there. -/
def maySecond (a b : UInt8) : Bool :=
  isContinuation b &&
    (if a = 0xE0 then 0xA0 ≤ b
    else if a = 0xED then b < 0xA0
    else if a = 0xF0 then 0x90 ≤ b
    else if a = 0xF4 then b < 0x90
    else true)

/-- The character of a complete sequence: the lead byte's low bits, then six bits a byte. -/
def assemble (a : UInt8) (rest : Bytes) : Char :=
  Char.ofNat (rest.foldl (fun n b => n * 64 + b.toNat % 64)
    (a.toNat % Nat.pow 2 (7 - sequenceLength a)))

/-- The chunks that end with `b` when no sequence is under way, and the sequence it starts. -/
def start (b : UInt8) : List Chunk × Bytes :=
  if b < 0x80 then ([.char (Char.ofNat b.toNat)], [])
  else if b < 0xC2 || 0xF5 ≤ b then ([.flawed [b] .invalidStart], [])
  else ([], [b])

/-- The chunks that end with `b` or right before it, and the sequence then under way. -/
def step : Bytes → UInt8 → List Chunk × Bytes
  | [], b => start b
  | a :: rest, b =>
    if (if rest = [] then maySecond a b else isContinuation b) then
      if rest.length + 2 = sequenceLength a then ([.char (assemble a (rest ++ [b]))], [])
      else ([], a :: rest ++ [b])
    else
      (.flawed (a :: rest) .invalidContinuation :: (start b).1, (start b).2)

/-- Splits the bytes after those of `pending`, a sequence under way. -/
def chunksAfter : Bytes → Bytes → List Chunk
  | [], [] => []
  | a :: rest, [] => [.flawed (a :: rest) .unexpectedEnd]
  | pending, b :: s => (step pending b).1 ++ chunksAfter (step pending b).2 s

def chunks (s : Bytes) : List Chunk := chunksAfter [] s

/-- The first ill-formed span of a byte string. -/
structure DecodeError where
  position : Nat
  bytes : Bytes
  flaw : Flaw
deriving DecidableEq

/-- The characters of chunks of which the first lies at `position`. -/
def charsOfChunks (position : Nat) : List Chunk → Except DecodeError (List Char)
  | [] => .ok []
  | .char c :: cs =>
    match charsOfChunks (position + (Chunk.char c).bytes.length) cs with
    | .ok t => .ok (c :: t)
    | .error e => .error e
  | .flawed bs flaw :: _ => .error ⟨position, bs, flaw⟩

/-- Strict decoding. -/
def decode (s : Bytes) : Except DecodeError (List Char) := charsOfChunks 0 (chunks s)

def encodeChars (cs : List Char) : Bytes := cs.flatMap String.utf8EncodeChar

/-- A run of `count` surrogate halves, of which the first is `first`, that has no encoding. -/
structure EncodeError where
  position : Nat
  first : CodePoint
  count : Nat
deriving DecidableEq

/-- The first code point that `encodable` refuses, with the surrogate halves right after it. -/
def refusedRun (encodable : CodePoint → Bool) (position : Nat) : Text → Option EncodeError
  | [] => none
  | p :: t =>
    if encodable p then refusedRun encodable (position + 1) t
    else some ⟨position, p, 1 + (t.takeWhile CodePoint.isSurrogate).length⟩

/-- What strict encoding refuses in a text. -/
def encodeError? (t : Text) : Option EncodeError := refusedRun (fun p => !p.isSurrogate) 0 t

def pointBytes : CodePoint → Bytes
  | .char c => String.utf8EncodeChar c
  | .surrogate _ => []

/-- Strict encoding. -/
def encode (t : Text) : Except EncodeError Bytes :=
  match encodeError? t with
  | some e => .error e
  | none => .ok (t.flatMap pointBytes)

/-- The ill-formed byte that a surrogate half stands for. -/
def strayByte? : CodePoint → Option UInt8
  | .char _ => none
  | .surrogate k => if 0x480 ≤ k.val ∧ k.val < 0x500 then some (UInt8.ofNat (k.val - 0x400)) else none

/-- The surrogate half that stands for an ill-formed byte. -/
def strayHalf (b : UInt8) : CodePoint :=
  .surrogate ⟨0x400 + b.toNat, by have := b.toNat_lt; omega⟩

def systemPoint : CodePoint → Bytes
  | .char c => String.utf8EncodeChar c
  | p => (strayByte? p).toList

/-- The byte string that a text is for the operating system. -/
def encodeSystem (t : Text) : Bytes := t.flatMap systemPoint

/-- What that encoding refuses: a half that stands for no byte. -/
def systemError? (t : Text) : Option EncodeError :=
  refusedRun (fun p => !p.isSurrogate || (strayByte? p).isSome) 0 t

/-- The text of a byte string of the operating system. -/
def decodeSystem (s : Bytes) : Text :=
  (chunks s).flatMap fun
    | .char c => [.char c]
    | .flawed bs _ => bs.map strayHalf

end Utf8
end GoldenCheck
