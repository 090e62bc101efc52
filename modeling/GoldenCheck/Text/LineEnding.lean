/-! Line endings of text files: CR LF and CR alone are read as LF. -/

namespace GoldenCheck

/-- Reads every CR LF and every CR alone as LF. -/
def unifyLineEndings : List Char → List Char
  | [] => []
  | '\r' :: '\n' :: s => '\n' :: unifyLineEndings s
  | c :: s => (if c = '\r' then '\n' else c) :: unifyLineEndings s

end GoldenCheck
