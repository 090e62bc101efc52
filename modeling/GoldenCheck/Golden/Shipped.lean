import GoldenCheck.Golden.Config
import GoldenCheck.Storage.Setup

/-!
The golden root that is installed with the program: one case, the numbers that are checked and one
more.
-/

namespace GoldenCheck
namespace Golden
namespace Shipped

def root : Path := Path.ofText "/usr/local/share/goldencheck/golden"

def files : List (Text × String) :=
  [("config.json", "\x7b\n  \"entry_func\": \"is_small_prime\"\n\x7d\n"),
    ("prime/inputs.json", "[0, 1, 2, 3, 4, 5, 6, 7, 8, 9, 10, 11]\n"),
    ("prime/expected",
      "is_small_prime(0) = 0\nis_small_prime(1) = 0\nis_small_prime(2) = 1\n" ++
      "is_small_prime(3) = 1\nis_small_prime(4) = 0\nis_small_prime(5) = 1\n" ++
      "is_small_prime(6) = 0\nis_small_prime(7) = 1\nis_small_prime(8) = 0\n" ++
      "is_small_prime(9) = 0\nis_small_prime(10) = 0\nis_small_prime(11) = -1\n")]

/-- Puts the shipped files at their root. -/
def install (fs : FileSystem) : Except Refusal FileSystem :=
  files.foldlM (fun fs f =>
    fs.placeFile (Path.ofText (root.toText ++ "/" ++ f.1)) (Utf8.encodeChars f.2.toList)) fs

end Shipped
end Golden
end GoldenCheck
