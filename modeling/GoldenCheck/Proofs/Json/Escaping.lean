import GoldenCheck.Json.Reader
import GoldenCheck.Json.Writer
import Mathlib.Data.List.Chain

/-!
# Written strings are read back

A string is written as escapes and printable characters.  Reading gives one code point for each
escape, so that a character past 0xFFFF comes back as two halves, which are then joined.  Joining
undoes no more than that, unless the string itself has a high half directly before a low one.
-/

namespace GoldenCheck

/-! ## 1. Halves of surrogate pairs -/

namespace CodePoint

theorem char_valid (c : Char) : c.toNat < 0xD800 ∨ 0xDFFF < c.toNat ∧ c.toNat < 0x110000 := c.valid

theorem ofNat_surrogate (k : Fin 0x800) : ofNat (0xD800 + k.val) = .surrogate k := by
  rw [ofNat, dif_pos (by omega), CodePoint.surrogate.injEq]
  apply Fin.ext
  show 0xD800 + k.val - 0xD800 = k.val
  omega

theorem ofNat_toNat_char (c : Char) : ofNat c.toNat = .char c := by
  have hvalid := CodePoint.char_valid c
  rw [ofNat, dif_neg (by omega), Char.ofNat_toNat]

/-- The first half of a surrogate pair. -/
def IsHigh (p : CodePoint) : Prop := 0xD800 ≤ p.toNat ∧ p.toNat < 0xDC00

/-- The second half of a surrogate pair. -/
def IsLow (p : CodePoint) : Prop := 0xDC00 ≤ p.toNat ∧ p.toNat < 0xE000

instance (p : CodePoint) : Decidable p.IsHigh := inferInstanceAs (Decidable (_ ∧ _))

instance (p : CodePoint) : Decidable p.IsLow := inferInstanceAs (Decidable (_ ∧ _))

/-- The halves by which a character past 0xFFFF is written; other code points stand for
themselves. -/
def halves : CodePoint → Text
  | .surrogate k => [.surrogate k]
  | .char c =>
    if c.toNat < 0x10000 then [.char c]
    else
      [.ofNat (0xD800 + (c.toNat - 0x10000) / 0x400), .ofNat (0xDC00 + (c.toNat - 0x10000) % 0x400)]

end CodePoint

/-- No high half stands directly before a low one. -/
def Text.Unpaired (t : Text) : Prop := t.IsChain fun p q => ¬ (p.IsHigh ∧ q.IsLow)

instance (t : Text) : Decidable t.Unpaired := inferInstanceAs (Decidable (List.IsChain _ t))

namespace Json

open CodePoint (halves)

/-! ## 2. Hexadecimal escapes -/

theorem hexValue?_hexDigit (n : Nat) : hexValue? (Text.hexDigit n) = some (n % 16) := by
  have digits : ∀ k < 16, hexValue? (Nat.digitChar k) = some k := by decide
  exact digits (n % 16) (Nat.mod_lt n (by decide))

theorem unitEscape_eq (n : Nat) :
    unitEscape n = ['\\', 'u', Text.hexDigit (n / 16 / 16 / 16), Text.hexDigit (n / 16 / 16),
      Text.hexDigit (n / 16), Text.hexDigit n] := rfl

theorem hexNumber?_hexDigits {n : Nat} (h : n < 0x10000) :
    hexNumber? (Text.hexDigit (n / 16 / 16 / 16)) (Text.hexDigit (n / 16 / 16))
      (Text.hexDigit (n / 16)) (Text.hexDigit n) = some n := by
  simp only [hexNumber?, hexValue?_hexDigit, Option.some.injEq]
  omega

section Body

variable {opening : Nat} {s : List Char}

/-- An escape is read as the code point with its number; a character has to follow it. -/
theorem stringBody_unitEscape {n : Nat} (h : n < 0x10000) (hs : s ≠ []) :
    stringBody opening (unitEscape n ++ s) =
      consPoint (CodePoint.ofNat n) (stringBody opening s) := by
  rw [unitEscape_eq]
  simp only [List.cons_append, List.nil_append]
  rw [stringBody.eq_def]
  simp only [if_neg (show ('\\' : Char) ≠ '"' by decide), if_true, hexNumber?_hexDigits h]
  rw [if_neg (by simpa using hs)]

theorem stringBody_letter {e d : Char} (he : e ≠ 'u') (h : escaped? e = some d) :
    stringBody opening ('\\' :: e :: s) = consPoint (.char d) (stringBody opening s) := by
  rw [stringBody.eq_def]
  simp only [if_neg (show ('\\' : Char) ≠ '"' by decide), if_true, if_neg he, h]

theorem stringBody_plain {c : Char} (hquote : c ≠ '"') (hslash : c ≠ '\\') (hlow : ' ' ≤ c) :
    stringBody opening (c :: s) = consPoint (.char c) (stringBody opening s) := by
  rw [stringBody.eq_def]
  simp only [if_neg hquote, if_neg hslash, if_neg (Char.not_lt.2 hlow)]

theorem stringBody_quote : stringBody opening ('"' :: s) = .ok ([], s) := by
  rw [stringBody.eq_def]
  simp only [if_true]

end Body

/-! ## 3. Code points -/

/-- The forms in which a character is written. -/
inductive CharText : Char → List Char → Prop
  | letter {c e : Char} : e ≠ 'u' → ' ' ≤ e ∧ e ≤ '~' → escaped? e = some c → c.toNat < 0x10000 →
    CharText c ['\\', e]
  | plain {c : Char} : c ≠ '"' → c ≠ '\\' → ' ' ≤ c ∧ c ≤ '~' → CharText c [c]
  | unit {c : Char} : c.toNat < 0x10000 → CharText c (unitEscape c.toNat)
  | pair {c : Char} : 0x10000 ≤ c.toNat →
    CharText c (unitEscape (0xD800 + (c.toNat - 0x10000) / 0x400) ++
      unitEscape (0xDC00 + (c.toNat - 0x10000) % 0x400))

theorem charText_pointText (c : Char) : CharText c (pointText (.char c)) := by
  rw [pointText]
  by_cases hquote : c = '"' ∨ c = '\\'
  · rw [if_pos hquote]
    rcases hquote with rfl | rfl
    · exact .letter (by decide) (by decide) rfl (by decide)
    · exact .letter (by decide) (by decide) rfl (by decide)
  rw [if_neg hquote]
  by_cases hfeed : c = '\n'
  · rw [if_pos hfeed, hfeed]
    exact .letter (by decide) (by decide) rfl (by decide)
  rw [if_neg hfeed]
  by_cases hreturn : c = '\r'
  · rw [if_pos hreturn, hreturn]
    exact .letter (by decide) (by decide) rfl (by decide)
  rw [if_neg hreturn]
  by_cases htab : c = '\t'
  · rw [if_pos htab, htab]
    exact .letter (by decide) (by decide) rfl (by decide)
  rw [if_neg htab]
  by_cases hback : c = '\x08'
  · rw [if_pos hback, hback]
    exact .letter (by decide) (by decide) rfl (by decide)
  rw [if_neg hback]
  by_cases hform : c = '\x0c'
  · rw [if_pos hform, hform]
    exact .letter (by decide) (by decide) rfl (by decide)
  rw [if_neg hform]
  by_cases hplain : ' ' ≤ c ∧ c ≤ '~'
  · rw [if_pos hplain]
    exact .plain (fun h => hquote (.inl h)) (fun h => hquote (.inr h)) hplain
  rw [if_neg hplain]
  by_cases hsmall : c.toNat < 0x10000
  · rw [if_pos hsmall]
    exact .unit hsmall
  · rw [if_neg hsmall]
    exact .pair (Nat.le_of_not_lt hsmall)

/-- Reading what a code point is written as gives its halves. -/
theorem stringBody_pointText {opening : Nat} {s : List Char} (p : CodePoint) (hs : s ≠ []) :
    stringBody opening (pointText p ++ s) = (halves p).foldr consPoint (stringBody opening s) := by
  cases p with
  | surrogate k =>
    rw [pointText, stringBody_unitEscape (by omega) hs, CodePoint.ofNat_surrogate]
    rfl
  | char c =>
    have hform := charText_pointText c
    generalize pointText (.char c) = text at hform ⊢
    cases hform with
    | letter hletter _ hc hsmall =>
      rw [halves, if_pos hsmall]
      exact stringBody_letter hletter hc
    | plain hquote hslash hrange =>
      have hascii : c.toNat ≤ 126 := hrange.2
      rw [halves, if_pos (by omega)]
      exact stringBody_plain hquote hslash hrange.1
    | unit hsmall =>
      rw [stringBody_unitEscape hsmall hs, CodePoint.ofNat_toNat_char, halves, if_pos hsmall]
      rfl
    | pair hlarge =>
      have hvalid := CodePoint.char_valid c
      rw [List.append_assoc, stringBody_unitEscape (by omega) (by simp [unitEscape]),
        stringBody_unitEscape (by omega) hs, halves, if_neg (by omega)]
      rfl

theorem foldr_consPoint (t u : Text) (r : List Char) :
    t.foldr consPoint (.ok (u, r)) = .ok (t ++ u, r) := by
  induction t with
  | nil => rfl
  | cons p t ih => rw [List.foldr_cons, ih]; rfl

theorem stringBody_flatMap (opening : Nat) (t : Text) (r : List Char) :
    stringBody opening (t.flatMap pointText ++ '"' :: r) = .ok (t.flatMap halves, r) := by
  induction t with
  | nil => exact stringBody_quote
  | cons p t ih =>
    rw [List.flatMap_cons, List.append_assoc, stringBody_pointText p (by simp), ih,
      foldr_consPoint, List.flatMap_cons]

/-! ## 4. Joining -/

/-- Joining leaves a code point alone that makes no pair with the one behind it. -/
theorem joinPoint_unpaired {p : CodePoint} {t : Text}
    (h : ∀ q ∈ t.head?, ¬ (p.IsHigh ∧ q.IsLow)) : joinPoint p t = p :: t := by
  unfold joinPoint
  split
  next k l r =>
    have hpair := h (.surrogate l) rfl
    simp only [CodePoint.IsHigh, CodePoint.IsLow, CodePoint.toNat] at hpair
    rw [if_neg (by omega)]
  next => rfl

/-- The halves of a character are joined to the character. -/
theorem joinPoint_halves {c : Char} (h : ¬ c.toNat < 0x10000) (t : Text) :
    (halves (.char c)).foldr joinPoint t = .char c :: t := by
  have hvalid := CodePoint.char_valid c
  have hhigh : (c.toNat - 0x10000) / 0x400 < 0x400 := by omega
  have hlow : (c.toNat - 0x10000) % 0x400 < 0x400 := by omega
  have high := CodePoint.ofNat_surrogate ⟨(c.toNat - 0x10000) / 0x400, by omega⟩
  have low := CodePoint.ofNat_surrogate ⟨0x400 + (c.toNat - 0x10000) % 0x400, by omega⟩
  rw [show 0xD800 + (0x400 + (c.toNat - 0x10000) % 0x400) = 0xDC00 + (c.toNat - 0x10000) % 0x400
    by omega] at low
  have hlast : joinPoint (.surrogate ⟨0x400 + (c.toNat - 0x10000) % 0x400, by omega⟩) t =
      .surrogate ⟨0x400 + (c.toNat - 0x10000) % 0x400, by omega⟩ :: t := by
    apply joinPoint_unpaired
    simp only [CodePoint.IsHigh, CodePoint.toNat]
    omega
  have hback : 0x10000 + (c.toNat - 0x10000) / 0x400 * 0x400 +
      (0x400 + (c.toNat - 0x10000) % 0x400 - 0x400) = c.toNat := by
    omega
  rw [halves, if_neg h, List.foldr_cons, List.foldr_cons, List.foldr_nil, high, low, hlast,
    joinPoint]
  simp only
  rw [if_pos (by omega), hback, Char.ofNat_toNat]

theorem foldr_joinPoint {p : CodePoint} {t : Text}
    (h : ∀ q ∈ t.head?, ¬ (p.IsHigh ∧ q.IsLow)) :
    (halves p).foldr joinPoint t = p :: t := by
  cases p with
  | surrogate k => exact joinPoint_unpaired h
  | char c =>
    by_cases hsmall : c.toNat < 0x10000
    · rw [halves, if_pos hsmall]
      exact joinPoint_unpaired h
    · exact joinPoint_halves hsmall t

theorem joinSurrogates_halves {t : Text} (h : t.Unpaired) :
    joinSurrogates (t.flatMap halves) = t := by
  induction t with
  | nil => rfl
  | cons p t ih =>
    have hchain := List.isChain_cons.1 h
    have hrest : (t.flatMap halves).foldr joinPoint [] = t := ih hchain.2
    rw [joinSurrogates, List.flatMap_cons, List.foldr_append, hrest]
    exact foldr_joinPoint hchain.1

/-- A string comes back as it was written. -/
theorem string_written {t : Text} (h : t.Unpaired) (opening : Nat) (r : List Char) :
    string opening (t.flatMap pointText ++ '"' :: r) = .ok (t, r) := by
  rw [string, stringBody_flatMap]
  simp only [joinSurrogates_halves h]

/-! ## 5. Strings between space and tilde -/

/-- All characters are from the space to the tilde. -/
def SpaceToTilde (s : List Char) : Prop := ∀ c ∈ s, ' ' ≤ c ∧ c ≤ '~'

theorem SpaceToTilde.append {s t : List Char} (hs : SpaceToTilde s) (ht : SpaceToTilde t) :
    SpaceToTilde (s ++ t) :=
  fun c hc => (List.mem_append.1 hc).elim (hs c) (ht c)

theorem SpaceToTilde.cons {c : Char} {s : List Char} (hc : ' ' ≤ c ∧ c ≤ '~')
    (hs : SpaceToTilde s) : SpaceToTilde (c :: s) :=
  List.forall_mem_cons.2 ⟨hc, hs⟩

theorem spaceToTilde_nil : SpaceToTilde [] := List.forall_mem_nil _

theorem spaceToTilde_unitEscape (n : Nat) : SpaceToTilde (unitEscape n) := by
  have digits : ∀ k < 16, ' ' ≤ Nat.digitChar k ∧ Nat.digitChar k ≤ '~' := by decide
  have hdigit : ∀ k, ' ' ≤ Text.hexDigit k ∧ Text.hexDigit k ≤ '~' :=
    fun k => digits _ (Nat.mod_lt k (by decide))
  rw [unitEscape_eq]
  apply SpaceToTilde.cons (by decide)
  apply SpaceToTilde.cons (by decide)
  exact (((spaceToTilde_nil.cons (hdigit _)).cons (hdigit _)).cons (hdigit _)).cons (hdigit _)

theorem spaceToTilde_pointText (p : CodePoint) : SpaceToTilde (pointText p) := by
  cases p with
  | surrogate k => exact spaceToTilde_unitEscape _
  | char c =>
    have hform := charText_pointText c
    generalize pointText (.char c) = text at hform ⊢
    cases hform with
    | letter _ hrange _ _ => exact (spaceToTilde_nil.cons hrange).cons (by decide)
    | plain _ _ hrange => exact spaceToTilde_nil.cons hrange
    | unit _ => exact spaceToTilde_unitEscape _
    | pair _ => exact (spaceToTilde_unitEscape _).append (spaceToTilde_unitEscape _)

theorem spaceToTilde_stringText (t : Text) : SpaceToTilde (stringText t) := by
  have hbody : SpaceToTilde (t.flatMap pointText) := by
    intro c hc
    obtain ⟨p, -, hp⟩ := List.mem_flatMap.1 hc
    exact spaceToTilde_pointText p c hp
  exact (hbody.cons (by decide)).append (spaceToTilde_nil.cons (by decide))

end Json
end GoldenCheck
