import GoldenCheck.Proofs.Prime.Agreement
import GoldenCheck.Proofs.Prime.Arguments
import Mathlib.Data.Int.ModEq

/-!
# The report tells the words that were checked

A sentence starts with the numeral of a word and a space, whichever of the three it is, and has no line
feed in it.  So a report can be cut into its sentences and each sentence tells its word; and since a
sentence is about the word only, integers with the same words have the same report.
-/

namespace GoldenCheck
namespace Prime

open Numeral (Denotes Short)

/-! ## 1. One sentence -/

theorem word_eq_iff (a b : Int) : word a = word b ↔ a ≡ b [ZMOD 2 ^ 32] := by
  rw [Int.ModEq, ← word_cast, ← word_cast, Int.natCast_inj]

theorem not_mem_ofNat {c : Char} (hc : c.isDigit = false) (n : Nat) : .char c ∉ Numeral.ofNat n := by
  intro h
  obtain ⟨d, hd, heq⟩ := List.mem_map.1 h
  have hdigit := Numeral.isDigit_of_mem_digits hd
  rw [CodePoint.char.inj heq, hc] at hdigit
  contradiction

/-- A sentence is the numeral of the word, a space and a text about the word. -/
theorem describe_eq_cut (a : Int) :
    ∃ rest, describe a = Numeral.ofNat (word a) ++ .char ' ' :: rest := by
  unfold describe
  cases classify a with
  | prime => exact ⟨Text.ofString "is prime", rfl⟩
  | notPrime =>
    refine ⟨Text.ofString "is not prime (smallest factor: " ++ Numeral.ofNat (firstDivisor a) ++
      Text.ofString ")", ?_⟩
    simp only [List.append_assoc]
    rfl
  | outOfDomain =>
    refine ⟨Text.ofString "is out of range (only 0.." ++ Numeral.ofNat domainMax ++
      Text.ofString " are checked)", ?_⟩
    simp only [List.append_assoc]
    rfl

/-- Sentences are the same exactly if the words are. -/
theorem describe_eq_describe_iff (a b : Int) : describe a = describe b ↔ word a = word b := by
  constructor
  · intro h
    obtain ⟨rest, ha⟩ := describe_eq_cut a
    obtain ⟨rest', hb⟩ := describe_eq_cut b
    rw [ha, hb] at h
    have hspace := not_mem_ofNat (show ' '.isDigit = false by decide)
    have hnumeral := (Text.cut_unique (hspace (word a)) (hspace (word b)) h).1
    exact Numeral.digits_injective (Text.ofChars_injective hnumeral)
  · intro h
    simp only [describe, classify, firstDivisor, h]

theorem newline_notMem_describe (a : Int) : .char '\n' ∉ describe a := by
  have hnumeral := not_mem_ofNat (show '\n'.isDigit = false by decide)
  unfold describe
  cases classify a <;> simp only [List.mem_append, hnumeral, false_or, or_false] <;> decide

/-! ## 2. A report -/

theorem map_describe_eq_iff {xs ys : List Int} :
    xs.map describe = ys.map describe ↔ List.Forall₂ (fun a b => a ≡ b [ZMOD 2 ^ 32]) xs ys := by
  rw [← List.forall₂_eq_eq_eq, List.forall₂_map_left_iff, List.forall₂_map_right_iff]
  simp only [describe_eq_describe_iff, word_eq_iff]

theorem out_of_integers {xs : List Int} (hne : xs ≠ []) (hshort : ∀ a ∈ xs, Short a) :
    (numbersCommand (xs.map argument)).out = Text.lines (xs.map describe) := by
  have hdenotes : List.Forall₂ Denotes (xs.map argument) xs := by
    rw [List.forall₂_map_left_iff, List.forall₂_same]
    intro a ha
    exact Numeral.denotes_ofInt (hshort a ha)
  have hwords : ∀ t ∈ xs.map argument, NumberWord t := by
    intro t ht
    obtain ⟨a, -, rfl⟩ := List.mem_map.1 ht
    exact argument_numberWord a
  rw [numbersCommand_of_denotes (by simpa using hne) hwords hdenotes]

/-- For the numerals of two lists of integers within the limit the command prints the same exactly if the
lists have one length and agree modulo the size of a word at each place.  The sentences about two integers
of any size are the same exactly if these agree so. -/
theorem report_determines_words :
    (∀ xs ys : List Int, xs ≠ [] → ys ≠ [] → (∀ a ∈ xs, Short a) → (∀ b ∈ ys, Short b) →
      ((numbersCommand (xs.map argument)).out = (numbersCommand (ys.map argument)).out ↔
        xs.length = ys.length ∧
          ∀ i (hx : i < xs.length) (hy : i < ys.length), xs[i] ≡ ys[i] [ZMOD 2 ^ 32])) ∧
    ∀ a b : Int, describe a = describe b ↔ a ≡ b [ZMOD 2 ^ 32] := by
  constructor
  · intro xs ys hxs hys hshort hshort'
    have hlines : Text.lines (xs.map describe) = Text.lines (ys.map describe) ↔
        xs.map describe = ys.map describe := by
      have hfree : ∀ zs : List Int, ∀ t ∈ zs.map describe, .char '\n' ∉ t := by
        intro zs t ht
        obtain ⟨a, -, rfl⟩ := List.mem_map.1 ht
        exact newline_notMem_describe a
      exact ⟨Text.lines_injective (hfree xs) (hfree ys), fun h => by rw [h]⟩
    rw [out_of_integers hxs hshort, out_of_integers hys hshort', hlines, map_describe_eq_iff,
      List.forall₂_iff_get]
    rfl
  · intro a b
    rw [describe_eq_describe_iff, word_eq_iff]

/-- A prime and minus one have the report of what they wrap to; the next number has another sentence. -/
theorem wrapped_report_determines_words :
    (numbersCommand ([7, -1].map argument)).out =
        (numbersCommand ([0x100000007, 0xFFFFFFFF].map argument)).out ∧
      describe 7 ≠ describe 8 := by
  obtain ⟨hreport, hsentence⟩ := report_determines_words
  have hplaces : ∀ i (hx : i < [7, -1].length) (hy : i < [0x100000007, 0xFFFFFFFF].length),
      [7, -1][i] ≡ [0x100000007, 0xFFFFFFFF][i] [ZMOD 2 ^ 32] := by
    intro i hx hy
    have hi : i = 0 ∨ i = 1 := by
      simp only [List.length_cons, List.length_nil] at hx
      omega
    rcases hi with rfl | rfl
    · exact show (7 : Int) ≡ 0x100000007 [ZMOD 2 ^ 32] by decide
    · exact show (-1 : Int) ≡ 0xFFFFFFFF [ZMOD 2 ^ 32] by decide
  refine ⟨(hreport [7, -1] [0x100000007, 0xFFFFFFFF] (by simp) (by simp) (by decide) (by decide)).2
    ⟨rfl, hplaces⟩, fun h => ?_⟩
  exact absurd ((hsentence 7 8).1 h) (by decide)

end Prime
end GoldenCheck
