import GoldenCheck.Proofs.Json.IntegerText
import Mathlib.Data.Nat.Digits.Defs
import Mathlib.Tactic.Common

/-!
# Which texts are read as integers

A text is read as an integer exactly if it is white space, a sign or none, and at most 4300 digits of any
scripts with single underscores between them, and white space again.  No digit is white space or a sign, so
these parts can be cut apart in one way only.  The numeral of an integer is such a text.
-/

namespace GoldenCheck
namespace Numeral

/-! ## 1. The grammar -/

/-- White space of any kind. -/
def Blanks (t : Text) : Prop := ∀ p ∈ t, blankPoint p = true

/-- Digits of any script, the highest first, with single underscores between them. -/
inductive DigitText : Text → List Nat → Prop
  | last {p : CodePoint} {d : Nat} : digitValue? p.toNat = some d → DigitText [p] [d]
  | next {p : CodePoint} {d : Nat} {t : Text} {ds : List Nat} : digitValue? p.toNat = some d →
    DigitText t ds → DigitText (p :: t) (d :: ds)
  | underscore {p : CodePoint} {d : Nat} {t : Text} {ds : List Nat} : digitValue? p.toNat = some d →
    DigitText t ds → DigitText (p :: .char '_' :: t) (d :: ds)

/-- A sign or nothing, and the factor that it stands for. -/
inductive SignText : Text → Int → Prop
  | none : SignText [] 1
  | plus : SignText [.char '+'] 1
  | minus : SignText [.char '-'] (-1)

/-- The texts of integers, and what they denote.  Leading zeros count as digits. -/
inductive Denotes : Text → Int → Prop
  | intro {before sign digits after : Text} {factor : Int} {ds : List Nat} : Blanks before →
    SignText sign factor → DigitText digits ds → ds.length ≤ 4300 → Blanks after →
    Denotes (before ++ (sign ++ digits) ++ after) (factor * (Nat.ofDigits 10 ds.reverse : Nat))

/-! ## 2. Digits -/

theorem value_eq_ofDigits (ds : List Nat) : value ds = Nat.ofDigits 10 ds.reverse := by
  rw [Nat.ofDigits_eq_foldr, List.foldr_reverse, value]
  congr 1
  funext n d
  rw [Nat.mul_comm, Nat.add_comm]
  rfl

/-- A digit lies within ten places of a zero. -/
theorem exists_zero_of_digit {n d : Nat} (h : digitValue? n = some d) :
    ∃ z ∈ zeroDigits, ∃ k < 10, n = z + k := by
  obtain ⟨z, hz, -⟩ := Option.map_eq_some_iff.1 h
  have hrange := List.find?_some hz
  simp only [Bool.and_eq_true, decide_eq_true_eq] at hrange
  exact ⟨z, List.mem_of_find?_eq_some hz, n - z, by omega, by omega⟩

theorem digit_not_blank {n d : Nat} (h : digitValue? n = some d) : isBlank n = false := by
  have hall : ∀ z ∈ zeroDigits, ∀ k < 10, isBlank (z + k) = false := by decide
  obtain ⟨z, hz, k, hk, rfl⟩ := exists_zero_of_digit h
  exact hall z hz k hk

/-- Signs and the underscore are no digits. -/
theorem digit_ne_char {p : CodePoint} {d : Nat} (h : digitValue? p.toNat = some d) {c : Char}
    (hc : digitValue? c.toNat = none) : p ≠ .char c := by
  intro hp
  rw [hp] at h
  change digitValue? c.toNat = some d at h
  rw [hc] at h
  contradiction

/-- What may come after a digit: nothing, more digits, or an underscore and more digits. -/
def AfterDigit (t : Text) (ds : List Nat) : Prop :=
  t = [] ∧ ds = [] ∨ DigitText t ds ∨ ∃ u, t = .char '_' :: u ∧ DigitText u ds

theorem digitText_cons_iff {p : CodePoint} {t : Text} {ds : List Nat} :
    DigitText (p :: t) ds ↔
      ∃ d rest, digitValue? p.toNat = some d ∧ AfterDigit t rest ∧ ds = d :: rest := by
  constructor
  · intro h
    cases h with
    | last hd => exact ⟨_, _, hd, .inl ⟨rfl, rfl⟩, rfl⟩
    | next hd ht => exact ⟨_, _, hd, .inr (.inl ht), rfl⟩
    | underscore hd ht => exact ⟨_, _, hd, .inr (.inr ⟨_, rfl, ht⟩), rfl⟩
  · rintro ⟨d, rest, hd, ⟨rfl, rfl⟩ | ht | ⟨u, rfl, ht⟩, rfl⟩
    · exact .last hd
    · exact .next hd ht
    · exact .underscore hd ht

theorem bind_digit_eq_some_iff {p : CodePoint} {more : Option (List Nat)} {ds : List Nat} :
    ((digitValue? p.toNat).bind fun d => more.map (d :: ·)) = some ds ↔
      ∃ d rest, digitValue? p.toNat = some d ∧ more = some rest ∧ ds = d :: rest := by
  cases digitValue? p.toNat <;> cases more <;> simp [eq_comm]

theorem moreDigits_eq_some_iff {t : Text} {ds : List Nat} :
    moreDigits t = some ds ↔ AfterDigit t ds := by
  have hunderscore : digitValue? '_'.toNat = none := by decide
  fun_induction moreDigits t generalizing ds with
  | case1 =>
    constructor
    · intro h
      exact .inl ⟨rfl, (Option.some.inj h).symm⟩
    · rintro (⟨-, rfl⟩ | h | ⟨u, hu, -⟩)
      · rfl
      · cases h
      · cases hu
  | case2 p t ih =>
    rw [bind_digit_eq_some_iff]
    simp only [ih, ← digitText_cons_iff]
    constructor
    · intro h
      exact .inr (.inr ⟨p :: t, rfl, h⟩)
    · rintro (⟨h, -⟩ | h | ⟨u, hu, h⟩)
      · cases h
      · -- An underscore is no digit.
        obtain ⟨d, rest, hd, -, -⟩ := digitText_cons_iff.1 h
        exact absurd rfl (digit_ne_char hd hunderscore)
      · cases hu
        exact h
  | case3 p t hne ih =>
    rw [bind_digit_eq_some_iff]
    simp only [ih, ← digitText_cons_iff]
    constructor
    · intro h
      exact .inr (.inl h)
    · rintro (⟨h, -⟩ | h | ⟨u, hu, h⟩)
      · cases h
      · exact h
      · -- After an underscore there is a code point, and then the case before this one applies.
        cases hu
        cases h with
        | last _ => exact absurd rfl (hne _ _ rfl)
        | next _ _ => exact absurd rfl (hne _ _ rfl)
        | underscore _ _ => exact absurd rfl (hne _ _ rfl)

theorem digitRun?_eq_some_iff {t : Text} {ds : List Nat} : digitRun? t = some ds ↔ DigitText t ds := by
  cases t with
  | nil =>
    constructor
    · intro h
      cases h
    · intro h
      cases h
  | cons p t =>
    rw [digitRun?, bind_digit_eq_some_iff, digitText_cons_iff]
    simp only [moreDigits_eq_some_iff]

theorem natural?_eq_some_iff {t : Text} {n : Nat} :
    natural? t = some n ↔
      ∃ ds, DigitText t ds ∧ ds.length ≤ 4300 ∧ n = Nat.ofDigits 10 ds.reverse := by
  rw [natural?, Option.bind_eq_some_iff]
  simp only [digitRun?_eq_some_iff, value_eq_ofDigits]
  constructor
  · rintro ⟨ds, hds, h⟩
    split at h
    next hlength => exact ⟨ds, hds, hlength, (Option.some.inj h).symm⟩
    next => contradiction
  · rintro ⟨ds, hds, hlength, rfl⟩
    exact ⟨ds, hds, if_pos hlength⟩

/-! ## 3. White space around an integer -/

theorem exists_blanks (t : Text) :
    ∃ before after, Blanks before ∧ Blanks after ∧ t = before ++ strip t ++ after := by
  have hall : ∀ s : Text, Blanks (s.takeWhile blankPoint) := fun s p hp =>
    List.all_eq_true.1 List.all_takeWhile p hp
  refine ⟨t.takeWhile blankPoint, ((t.dropWhile blankPoint).reverse.takeWhile blankPoint).reverse,
    hall t, fun p hp => hall _ p (List.mem_reverse.1 hp), ?_⟩
  rw [strip, List.append_assoc, ← List.reverse_append, List.takeWhile_append_dropWhile,
    List.reverse_reverse, List.takeWhile_append_dropWhile]

/-- White space is taken off up to a text that neither starts nor ends with any. -/
theorem strip_append {before text after : Text} (hbefore : Blanks before) (hafter : Blanks after)
    {p q : CodePoint} (hfirst : text.head? = some p) (hlast : text.getLast? = some q)
    (hp : blankPoint p = false) (hq : blankPoint q = false) :
    strip (before ++ text ++ after) = text := by
  have hkeep : ∀ {s : Text} {r : CodePoint}, s.head? = some r → blankPoint r = false → ∀ u : Text,
      (s ++ u).dropWhile blankPoint = s ++ u := by
    intro s r hr hblank u
    cases s with
    | nil => cases hr
    | cons c s =>
      obtain rfl := Option.some.inj hr
      rw [List.cons_append, List.dropWhile_cons, if_neg (by rw [hblank]; exact Bool.false_ne_true)]
  have hleft : (before ++ text ++ after).dropWhile blankPoint = text ++ after := by
    rw [List.append_assoc, List.dropWhile_append_of_pos hbefore, hkeep hfirst hp]
  have hright : (text ++ after).reverse.dropWhile blankPoint = text.reverse := by
    rw [List.reverse_append,
      List.dropWhile_append_of_pos fun r hr => hafter r (List.mem_reverse.1 hr)]
    have hend := hkeep (s := text.reverse) (by rw [List.head?_reverse]; exact hlast) hq []
    rwa [List.append_nil] at hend
  rw [strip, hleft, hright, List.reverse_reverse]

theorem DigitText.first {t : Text} {ds : List Nat} (h : DigitText t ds) :
    ∃ p d, t.head? = some p ∧ digitValue? p.toNat = some d := by
  cases h with
  | last hd => exact ⟨_, _, rfl, hd⟩
  | next hd _ => exact ⟨_, _, rfl, hd⟩
  | underscore hd _ => exact ⟨_, _, rfl, hd⟩

theorem DigitText.final {t : Text} {ds : List Nat} (h : DigitText t ds) :
    ∃ p d, t.getLast? = some p ∧ digitValue? p.toNat = some d := by
  induction h with
  | last hd => exact ⟨_, _, rfl, hd⟩
  | @next p _ t _ _ _ ih =>
    obtain ⟨q, d, hq, hd⟩ := ih
    exact ⟨q, d, by rw [List.getLast?_cons, hq]; rfl, hd⟩
  | @underscore p _ t _ _ _ ih =>
    obtain ⟨q, d, hq, hd⟩ := ih
    exact ⟨q, d, by rw [List.getLast?_cons, List.getLast?_cons, hq]; rfl, hd⟩

theorem DigitText.not_signed {t u : Text} {ds : List Nat} (h : DigitText t ds) {c : Char}
    (hc : digitValue? c.toNat = none) : t ≠ .char c :: u := by
  intro ht
  obtain ⟨p, d, hp, hd⟩ := h.first
  rw [ht] at hp
  exact digit_ne_char hd hc (Option.some.inj hp).symm

theorem strip_signed {before sign digits after : Text} {factor : Int} {ds : List Nat}
    (hbefore : Blanks before) (hsign : SignText sign factor) (hdigits : DigitText digits ds)
    (hafter : Blanks after) : strip (before ++ (sign ++ digits) ++ after) = sign ++ digits := by
  obtain ⟨p, d, hp, hd⟩ := hdigits.first
  obtain ⟨q, e, hq, he⟩ := hdigits.final
  have hlast : (sign ++ digits).getLast? = some q := by
    rw [List.getLast?_append, hq]
    rfl
  cases hsign with
  | none => exact strip_append hbefore hafter hp hlast (digit_not_blank hd) (digit_not_blank he)
  | plus => exact strip_append hbefore hafter rfl hlast (by decide) (digit_not_blank he)
  | minus => exact strip_append hbefore hafter rfl hlast (by decide) (digit_not_blank he)

theorem map_natural_eq_some_iff {x : Option Nat} {f : Int → Int} {n : Int} :
    (x >>= fun m => pure (m : Int)).map f = some n ↔ ∃ m : Nat, x = some m ∧ n = f m := by
  cases x <;> simp [eq_comm]

/-- A text is read as the integer that it denotes, and as none if it denotes none. -/
theorem read?_eq_some_iff {t : Text} {n : Int} : read? t = some n ↔ Denotes t n := by
  constructor
  · intro h
    obtain ⟨before, after, hbefore, hafter, ht⟩ := exists_blanks t
    rw [ht]
    unfold read? at h
    split at h
    next digits hstrip =>
      obtain ⟨m, hm, rfl⟩ := map_natural_eq_some_iff.1 h
      obtain ⟨ds, hds, hlength, rfl⟩ := natural?_eq_some_iff.1 hm
      have hdenotes := Denotes.intro hbefore .minus hds hlength hafter
      rw [Int.neg_one_mul] at hdenotes
      rw [hstrip]
      exact hdenotes
    next digits hstrip =>
      obtain ⟨m, hm, rfl⟩ := map_natural_eq_some_iff.1 h
      obtain ⟨ds, hds, hlength, rfl⟩ := natural?_eq_some_iff.1 hm
      have hdenotes := Denotes.intro hbefore .plus hds hlength hafter
      rw [Int.one_mul] at hdenotes
      rw [hstrip]
      exact hdenotes
    next =>
      obtain ⟨m, hm, rfl⟩ := map_natural_eq_some_iff.1 h
      obtain ⟨ds, hds, hlength, rfl⟩ := natural?_eq_some_iff.1 hm
      have hdenotes := Denotes.intro hbefore .none hds hlength hafter
      rw [Int.one_mul] at hdenotes
      exact hdenotes
  · intro h
    cases h with
    | @intro before sign digits after factor ds hbefore hsign hdigits hlength hafter =>
      have hnatural := natural?_eq_some_iff.2 ⟨ds, hdigits, hlength, rfl⟩
      rw [read?, strip_signed hbefore hsign hdigits hafter]
      cases hsign with
      | minus =>
        rw [Int.neg_one_mul]
        exact map_natural_eq_some_iff.2 ⟨_, hnatural, rfl⟩
      | plus =>
        rw [Int.one_mul]
        exact map_natural_eq_some_iff.2 ⟨_, hnatural, rfl⟩
      | none =>
        -- Digits do not start with a sign.
        rw [List.nil_append, Int.one_mul]
        split
        next => exact absurd rfl (hdigits.not_signed (by decide))
        next => exact absurd rfl (hdigits.not_signed (by decide))
        next => exact map_natural_eq_some_iff.2 ⟨_, hnatural, rfl⟩

theorem Denotes.unique {t : Text} {m n : Int} (hm : Denotes t m) (hn : Denotes t n) : m = n :=
  Option.some.inj ((read?_eq_some_iff.2 hm).symm.trans (read?_eq_some_iff.2 hn))

/-! ## 4. Numerals -/

theorem digitValue?_of_isDigit {c : Char} (h : c.isDigit = true) :
    digitValue? c.toNat = some (c.toNat - '0'.toNat) := by
  simp only [Char.isDigit, Bool.and_eq_true, decide_eq_true_eq] at h
  have hlo : 48 ≤ c.toNat := h.1
  have hhi : c.toNat ≤ 57 := h.2
  have hall : ∀ k < 10, digitValue? (48 + k) = some k := by decide
  have hdigit := hall (c.toNat - 48) (by omega)
  rwa [show 48 + (c.toNat - 48) = c.toNat by omega] at hdigit

theorem digitText_ofChars {c : Char} {cs : List Char} (h : ∀ d ∈ c :: cs, d.isDigit = true) :
    DigitText (Text.ofChars (c :: cs)) ((c :: cs).map fun d => d.toNat - '0'.toNat) := by
  induction cs generalizing c with
  | nil => exact .last (digitValue?_of_isDigit (h c List.mem_cons_self))
  | cons d cs ih =>
    exact .next (digitValue?_of_isDigit (h c List.mem_cons_self))
      (ih fun e he => h e (List.mem_cons_of_mem c he))

/-- The numeral of an integer that is not too long is read back as the integer. -/
theorem denotes_ofInt {a : Int} (h : Short a) : Denotes (Text.ofChars (ofInt a)) a := by
  have hdigits : ∃ ds, DigitText (Text.ofChars (digits a.natAbs)) ds ∧ ds.length ≤ 4300 ∧
      Nat.ofDigits 10 ds.reverse = a.natAbs := by
    obtain ⟨c, cs, hcs⟩ := List.exists_cons_of_ne_nil (Nat.toDigits_ne_nil (b := 10) (n := a.natAbs))
    have hmem : ∀ d ∈ c :: cs, d.isDigit = true := fun d hd => isDigit_of_mem_digits (hcs ▸ hd)
    have hvalue : DecimalText.value (digits a.natAbs) = a.natAbs := by
      rw [Json.value_eq_ofDigitChars]
      exact Nat.ofDigitChars_ten_toDigits
    refine ⟨(digits a.natAbs).map fun d => d.toNat - '0'.toNat, ?_, ?_, ?_⟩
    · have htext := digitText_ofChars hmem
      rwa [← hcs] at htext
    · rw [List.length_map]
      exact h
    · rw [← value_eq_ofDigits]
      exact hvalue
  obtain ⟨ds, hds, hlength, hvalue⟩ := hdigits
  have hempty : Blanks [] := List.forall_mem_nil _
  unfold ofInt
  split
  next hneg =>
    have hdenotes := Denotes.intro hempty .minus hds hlength hempty
    rw [hvalue, show (-1 : Int) * (a.natAbs : Int) = a by omega, List.append_nil] at hdenotes
    exact hdenotes
  next hneg =>
    have hdenotes := Denotes.intro hempty .none hds hlength hempty
    rw [hvalue, show (1 : Int) * (a.natAbs : Int) = a by omega, List.append_nil] at hdenotes
    exact hdenotes

end Numeral
end GoldenCheck
