import GoldenCheck.Proofs.Text.Encoding
import Mathlib.Tactic.Common

/-!
# Cutting texts with unified line endings

A text can be cut where no line ending is: the parts before and after are unified on their own, and each
part of the unified text comes from a part of the text.
-/

namespace GoldenCheck

theorem unifyLineEndings_cons {c : Char} (hc : c ≠ '\r') (s : List Char) :
    unifyLineEndings (c :: s) = c :: unifyLineEndings s := by
  rw [unifyLineEndings.eq_def]
  split
  next heq => cases heq
  next heq => exact absurd (List.cons.inj heq).1 hc
  next heq =>
    obtain ⟨rfl, rfl⟩ := List.cons.inj heq
    rw [if_neg hc]

/-- A first character that stays alone, whatever it is. -/
theorem unifyLineEndings_first {c : Char} {s : List Char} (h : c = '\r' → s.head? ≠ some '\n') :
    unifyLineEndings (c :: s) = (if c = '\r' then '\n' else c) :: unifyLineEndings s := by
  rw [unifyLineEndings.eq_def]
  split
  next heq => cases heq
  next heq =>
    obtain ⟨hc, rfl⟩ := List.cons.inj heq
    exact absurd rfl (h hc)
  next heq =>
    obtain ⟨rfl, rfl⟩ := List.cons.inj heq
    rfl

theorem unifyLineEndings_append {r : List Char} (hr : r.head? ≠ some '\n') (s : List Char) :
    unifyLineEndings (s ++ r) = unifyLineEndings s ++ unifyLineEndings r := by
  fun_induction unifyLineEndings s with
  | case1 => rfl
  | case2 s ih =>
    change '\n' :: unifyLineEndings (s ++ r) = _
    rw [ih]
    rfl
  | case3 c s hcase ih =>
    rw [List.cons_append, unifyLineEndings_first, ih, List.cons_append]
    -- A CR at the end of `s` meets the start of `r`, which is no LF.
    rintro rfl hhead
    cases s with
    | nil => exact hr hhead
    | cons d s =>
      obtain rfl := Option.some.inj hhead
      exact hcase s rfl rfl

/-- A unified text is cut at a character other than LF where the text is. -/
theorem exists_cut {cs s r : List Char} {c : Char} (hc : c ≠ '\n')
    (h : unifyLineEndings cs = s ++ c :: r) :
    ∃ s' r', cs = s' ++ c :: r' ∧ unifyLineEndings s' = s ∧ unifyLineEndings r' = r := by
  fun_induction unifyLineEndings cs generalizing s with
  | case1 => simp at h
  | case2 u ih =>
    cases s with
    | nil => exact absurd (List.cons.inj h).1.symm hc
    | cons d s =>
      obtain ⟨rfl, htail⟩ := List.cons.inj h
      obtain ⟨s', r', rfl, rfl, rfl⟩ := ih htail
      exact ⟨'\r' :: '\n' :: s', r', rfl, rfl, rfl⟩
  | case3 d u hcase ih =>
    cases s with
    | nil =>
      obtain ⟨hd, rfl⟩ := List.cons.inj h
      split at hd
      · exact absurd hd.symm hc
      · exact ⟨[], u, by rw [hd]; rfl, rfl, rfl⟩
    | cons e s =>
      obtain ⟨rfl, htail⟩ := List.cons.inj h
      obtain ⟨s', r', rfl, rfl, rfl⟩ := ih htail
      refine ⟨d :: s', r', rfl, unifyLineEndings_first ?_, rfl⟩
      rintro rfl hhead
      cases s' with
      | nil => cases hhead
      | cons f s' =>
        obtain rfl := Option.some.inj hhead
        exact hcase _ rfl rfl

theorem unifyLineEndings_eq_nil_iff {cs : List Char} : unifyLineEndings cs = [] ↔ cs = [] := by
  fun_cases unifyLineEndings cs <;> simp

/-- A piece of a text that holds no line ending. -/
structure Solid (t : List Char) : Prop where
  ne_nil : t ≠ []
  noFeed : '\n' ∉ t
  noReturn : '\r' ∉ t

theorem unifyLineEndings_solid {t : List Char} (hfeed : '\n' ∉ t) (hreturn : '\r' ∉ t)
    {cs r : List Char} :
    unifyLineEndings cs = t ++ r ↔ ∃ r', cs = t ++ r' ∧ unifyLineEndings r' = r := by
  induction t generalizing cs with
  | nil => simp
  | cons c t ih =>
    simp only [List.mem_cons, not_or] at hfeed hreturn
    constructor
    · intro h
      obtain ⟨s', u, rfl, hs', hu⟩ := exists_cut (s := []) (Ne.symm hfeed.1) h
      obtain rfl := unifyLineEndings_eq_nil_iff.1 hs'
      obtain ⟨r', rfl, hr'⟩ := (ih hfeed.2 hreturn.2).1 hu
      exact ⟨r', rfl, hr'⟩
    · rintro ⟨r', rfl, rfl⟩
      rw [List.cons_append, unifyLineEndings_cons (Ne.symm hreturn.1),
        (ih hfeed.2 hreturn.2).2 ⟨r', rfl, rfl⟩]
      rfl

/-- Cutting a text at a piece without line endings and cutting the unified text there is the same. -/
theorem Solid.cut_iff {t : List Char} (h : Solid t) {cs s r : List Char} :
    unifyLineEndings cs = s ++ (t ++ r) ↔
      ∃ s' r', cs = s' ++ (t ++ r') ∧ unifyLineEndings s' = s ∧ unifyLineEndings r' = r := by
  constructor
  · intro hcs
    obtain ⟨c, t, rfl⟩ := List.exists_cons_of_ne_nil h.ne_nil
    have hfeed := h.noFeed
    have hreturn := h.noReturn
    simp only [List.mem_cons, not_or] at hfeed hreturn
    obtain ⟨s', u, rfl, rfl, hu⟩ := exists_cut (Ne.symm hfeed.1) hcs
    obtain ⟨r', rfl, rfl⟩ := (unifyLineEndings_solid hfeed.2 hreturn.2).1 hu
    exact ⟨s', r', rfl, rfl, rfl⟩
  · rintro ⟨s', r', rfl, rfl, rfl⟩
    have hhead : (t ++ r').head? ≠ some '\n' := by
      obtain ⟨c, t, rfl⟩ := List.exists_cons_of_ne_nil h.ne_nil
      intro hc
      obtain rfl := Option.some.inj hc
      exact h.noFeed List.mem_cons_self
    rw [unifyLineEndings_append hhead, (unifyLineEndings_solid h.noFeed h.noReturn).2 ⟨r', rfl, rfl⟩]

end GoldenCheck
