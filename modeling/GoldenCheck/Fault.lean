import GoldenCheck.Json.Reader
import GoldenCheck.Storage.FileSystem
import GoldenCheck.Text.Quoted

/-! Why an operation fails, and how each cause is worded. -/

namespace GoldenCheck

inductive Fault where
  | notInteger (typeName : String)
  | outOfDomain (word : Nat)
  | numeralTooLong
  | undecodable (e : Utf8.DecodeError)
  | unencodable (e : Utf8.EncodeError)
  | unreadable (e : Json.ReadError)
  | refused (refusal : Refusal) (path : Text)
  | configNotObject (path : Text)
  | inputsNotIntegers (path : Text)
  | entryNotText (shown : Text)
  | unknownEntry (name : Text) (known : List Text)
  | unknownCase (name : Text) (root : Text)
deriving DecidableEq

namespace Fault

def number (n : Nat) : Text := Numeral.ofNat n

def flawText : Utf8.Flaw → Text
  | .invalidStart => "invalid start byte"
  | .invalidContinuation => "invalid continuation byte"
  | .unexpectedEnd => "unexpected end of data"

/-- A single byte is shown; of several only the positions are. -/
def decodeText (e : Utf8.DecodeError) : Text :=
  match e.bytes with
  | [b] =>
    "'utf-8' codec can't decode byte 0x" ++ Text.ofChars (Text.hex b.toNat 2) ++ " in position " ++
      number e.position ++ ": " ++ flawText e.flaw
  | bs =>
    "'utf-8' codec can't decode bytes in position " ++ number e.position ++ "-" ++
      number (e.position + bs.length - 1) ++ ": " ++ flawText e.flaw

/-- A single surrogate half is shown; of several only the positions are. -/
def encodeText (e : Utf8.EncodeError) : Text :=
  if e.count = 1 then
    "'utf-8' codec can't encode character '" ++ Text.ofChars (Text.numberEscape e.first.toNat) ++
      "' in position " ++ number e.position ++ ": surrogates not allowed"
  else
    "'utf-8' codec can't encode characters in position " ++ number e.position ++ "-" ++
      number (e.position + e.count - 1) ++ ": surrogates not allowed"

def problemText : Json.Problem → Text
  | .byteOrderMark => "Unexpected UTF-8 BOM (decode using utf-8-sig)"
  | .expectedValue => "Expecting value"
  | .expectedName => "Expecting property name enclosed in double quotes"
  | .expectedColon => "Expecting ':' delimiter"
  | .expectedComma => "Expecting ',' delimiter"
  | .unterminatedString => "Unterminated string starting at"
  | .controlCharacter => "Invalid control character at"
  | .badEscape => "Invalid \\escape"
  | .badNumberEscape => "Invalid \\uXXXX escape"
  | .extraData => "Extra data"

def digitLimitText : Text :=
  "Exceeds the limit (" ++ number Numeral.digitLimit ++ " digits) for integer string conversion"

def raiseLimitText : Text := "; use sys.set_int_max_str_digits() to increase the limit"

def readText : Json.ReadError → Text
  | .malformed problem place =>
    problemText problem ++ ": line " ++ number place.line ++ " column " ++ number place.column ++
      " (char " ++ number place.position ++ ")"
  | .integerTooLong n =>
    digitLimitText ++ ": value has " ++ number n ++ " digits" ++ raiseLimitText
  | .nestedTooDeeply .array =>
    "maximum recursion depth exceeded while decoding a JSON array from a unicode string"
  | .nestedTooDeeply .object =>
    "maximum recursion depth exceeded while decoding a JSON object from a unicode string"

def refusalText (path : Text) : Refusal → Text
  | .notFound => "[Errno 2] No such file or directory: " ++ path.quoted
  | .notDirectory => "[Errno 20] Not a directory: " ++ path.quoted
  | .isDirectory => "[Errno 21] Is a directory: " ++ path.quoted
  | .nameTooLong => "[Errno 36] File name too long: " ++ path.quoted
  | .nullByte => "embedded null byte"
  | .unencodable e => encodeText e

def message : Fault → Text
  | .notInteger typeName => "Expected an unsigned integer, got " ++ Text.ofString typeName
  | .outOfDomain word => number word ++ " is outside the supported range [0, 10]"
  | .numeralTooLong => digitLimitText ++ raiseLimitText
  | .undecodable e => decodeText e
  | .unencodable e => encodeText e
  | .unreadable e => readText e
  | .refused refusal path => refusalText path refusal
  | .configNotObject path => "Golden config must be a JSON object: " ++ path
  | .inputsNotIntegers path => path ++ " must contain a JSON list of integers"
  | .entryNotText shown => "Entry function name must be a string, got " ++ shown
  | .unknownEntry name known =>
    "Unknown entry function '" ++ name ++ "'. Known: " ++ Text.join ", " known
  | .unknownCase name root => "No golden case named '" ++ name ++ "' in " ++ root

/-- Whether the golden command reports the fault as a message of its own. The others, of the operating
system, of nesting and of types, end it. -/
def isReported : Fault → Bool
  | .notInteger _ => false
  | .unreadable (.nestedTooDeeply _) => false
  | .refused .nullByte _ | .refused (.unencodable _) _ => true
  | .refused _ _ => false
  | _ => true

end Fault
end GoldenCheck
