import GoldenCheck.Number.DecimalText
import Mathlib.Algebra.Ring.Nat

/-!
# Numerals name one integer each

The digits of a natural number give it back, so different integers have different numerals.  A
numeral is made of digits and at most a sign, and its length is bounded exactly if the integer is.
-/

namespace GoldenCheck
namespace Numeral

/-! ## 1. Digits -/

theorem digits_injective {m n : Nat} (h : digits m = digits n) : m = n := by
  have back : ∀ k, Nat.ofDigitChars 10 (digits k) 0 = k := fun _ => Nat.ofDigitChars_ten_toDigits
  rw [← back m, h, back n]

theorem isDigit_of_mem_digits {n : Nat} {c : Char} (h : c ∈ digits n) : c.isDigit = true :=
  Nat.isDigit_of_mem_toDigits (by decide) (by decide) h

/-! ## 2. Numerals of integers -/

theorem ofInt_injective {a b : Int} (h : ofInt a = ofInt b) : a = b := by
  -- A sign is no digit, so the first characters tell the signs of `a` and `b`.
  have noSign : ∀ (n : Nat) (ds : List Char), digits n ≠ '-' :: ds := by
    intro n ds hd
    have hmem : '-' ∈ digits n := hd ▸ List.mem_cons_self
    exact absurd (isDigit_of_mem_digits hmem) (by decide)
  unfold ofInt at h
  split at h <;> split at h
  next ha hb =>
    have hab := digits_injective (List.cons.inj h).2
    omega
  next ha hb => exact absurd h.symm (noSign _ _)
  next ha hb => exact absurd h (noSign _ _)
  next ha hb =>
    have hab := digits_injective h
    omega

/-- A numeral holds digits and minus signs only. -/
theorem mem_ofInt {a : Int} {c : Char} (h : c ∈ ofInt a) : c = '-' ∨ c.isDigit = true := by
  unfold ofInt at h
  split at h
  · exact (List.mem_cons.1 h).imp_right isDigit_of_mem_digits
  · exact .inr (isDigit_of_mem_digits h)

/-! ## 3. Numerals within the limit -/

/-- The integer has at most `digitLimit` digits. -/
def Short (a : Int) : Prop := (digits a.natAbs).length ≤ digitLimit

instance (a : Int) : Decidable (Short a) :=
  inferInstanceAs (Decidable ((digits a.natAbs).length ≤ digitLimit))

theorem short_iff (a : Int) : Short a ↔ a.natAbs < 10 ^ digitLimit :=
  Nat.length_toDigits_le_iff (by decide) (by decide)

theorem ofInt?_eq_some_iff {a : Int} {cs : List Char} :
    ofInt? a = some cs ↔ Short a ∧ cs = ofInt a := by
  unfold ofInt?
  split
  next h => simp [Short, h, eq_comm]
  next h => simp [Short, h]

end Numeral

namespace DecimalText

theorem foldl_digits_lt (ds : List Nat) (h : ∀ d ∈ ds, d < 10) (k init : Nat) (hi : init < 10 ^ k) :
    ds.foldl (fun n d => n * 10 + d) init < 10 ^ (k + ds.length) := by
  induction ds generalizing k init with
  | nil => exact hi
  | cons d ds ih =>
    have hd := h d List.mem_cons_self
    -- Ten times a number below `10 ^ k` leaves room for one digit.
    have hstep : init * 10 + d < 10 ^ (k + 1) := by
      rw [Nat.pow_succ]
      omega
    have hrest := ih (fun x hx => h x (List.mem_cons_of_mem _ hx)) (k + 1) _ hstep
    rw [List.foldl_cons, List.length_cons, show k + (ds.length + 1) = k + 1 + ds.length by omega]
    exact hrest

/-- The value of digits is bounded by their number. -/
theorem value_lt {ds : List Char} (h : ∀ c ∈ ds, c.isDigit = true) :
    value ds < 10 ^ ds.length := by
  have hlt : ∀ d ∈ ds.map fun c => c.toNat - '0'.toNat, d < 10 := by
    intro d hd
    obtain ⟨c, hc, rfl⟩ := List.mem_map.1 hd
    have hdigit := h c hc
    simp only [Char.isDigit, Bool.and_eq_true, decide_eq_true_eq] at hdigit
    have hhi : c.toNat ≤ 57 := hdigit.2
    change c.toNat - 48 < 10
    omega
  -- Before the first digit the value is 0, which is below `10 ^ 0`.
  have hfold := foldl_digits_lt _ hlt 0 0 (by decide)
  rwa [Nat.zero_add, List.length_map] at hfold

theorem natAbs_signed (negative : Bool) (n : Nat) : (signed negative n).natAbs = n := by
  cases negative <;> simp [signed]

end DecimalText
end GoldenCheck
