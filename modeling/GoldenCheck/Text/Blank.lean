/-! White space around a number on the command line. -/

namespace GoldenCheck

/-- Space, tab, line feed, vertical tab, form feed, carriage return, and the white space outside
ASCII. -/
def isBlank (n : Nat) : Bool :=
  n = 0x20 || (0x09 ≤ n && n ≤ 0x0D) || n = 0x85 || n = 0xA0 || n = 0x1680 ||
    (0x2000 ≤ n && n ≤ 0x200A) || n = 0x2028 || n = 0x2029 || n = 0x202F || n = 0x205F ||
    n = 0x3000

end GoldenCheck
