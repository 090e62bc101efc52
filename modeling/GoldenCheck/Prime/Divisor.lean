/-! Thirty-two-bit words and their least divisors. -/

namespace GoldenCheck
namespace Prime

/-- An integer as an unsigned word of 32 bits. -/
def word (a : Int) : Nat := (a % 0x100000000).toNat

/-- The least divisor of `n` from `d` on; once `d * d` passes `n` it can only be `n` itself. -/
def divisorFrom (n : Nat) : (steps d : Nat) → Nat
  | 0, _ => n
  | steps + 1, d =>
    if n < d * d then n else if n % d = 0 then d else divisorFrom n steps (d + 1)

/-- The least divisor of `n` above one, or `n` if it has none below itself. -/
def leastDivisor (n : Nat) : Nat := divisorFrom n n 2

/-- The least divisor of an integer's word. -/
def firstDivisor (a : Int) : Nat := leastDivisor (word a)

end Prime
end GoldenCheck
