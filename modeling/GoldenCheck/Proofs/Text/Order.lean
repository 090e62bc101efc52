import GoldenCheck.Text.Basic

/-!
# Texts in order

Code point order is a linear order, so that sorting by a key puts the keys in order, and in one way only
if no key comes twice.
-/

namespace GoldenCheck
namespace Text

theorem le_total (s t : Text) : le s t = true ∨ le t s = true := by
  induction s generalizing t with
  | nil => exact .inl rfl
  | cons a s ih =>
    cases t with
    | nil => exact .inr rfl
    | cons b t =>
      simp only [le, Bool.or_eq_true, Bool.and_eq_true, decide_eq_true_eq, beq_iff_eq]
      rcases Nat.lt_trichotomy a.toNat b.toNat with hlt | heq | hgt
      · exact .inl (.inl hlt)
      · exact (ih t).imp (fun h => .inr ⟨heq, h⟩) (fun h => .inr ⟨heq.symm, h⟩)
      · exact .inr (.inl hgt)

theorem le_trans {s t u : Text} (hst : le s t = true) (htu : le t u = true) : le s u = true := by
  induction s generalizing t u with
  | nil => rfl
  | cons a s ih =>
    cases t with
    | nil => contradiction
    | cons b t =>
      cases u with
      | nil => contradiction
      | cons c u =>
        simp only [le, Bool.or_eq_true, Bool.and_eq_true, decide_eq_true_eq, beq_iff_eq] at *
        rcases hst with hab | ⟨hab, hst⟩
        · exact .inl (by omega)
        · rcases htu with hbc | ⟨hbc, htu⟩
          · exact .inl (by omega)
          · exact .inr ⟨by omega, ih hst htu⟩

theorem toNat_injective {p q : CodePoint} (h : p.toNat = q.toNat) : p = q := by
  -- The numbers of surrogate halves are those that no character has.
  cases p with
  | char c =>
    cases q with
    | char d => rw [Char.toNat_inj.1 h]
    | surrogate k =>
      have hc : c.toNat < 0xD800 ∨ 0xDFFF < c.toNat ∧ c.toNat < 0x110000 := c.valid
      simp only [CodePoint.toNat] at h
      omega
  | surrogate j =>
    cases q with
    | char d =>
      have hd : d.toNat < 0xD800 ∨ 0xDFFF < d.toNat ∧ d.toNat < 0x110000 := d.valid
      simp only [CodePoint.toNat] at h
      omega
    | surrogate k =>
      simp only [CodePoint.toNat] at h
      rw [Fin.ext (show j.val = k.val by omega)]

theorem le_antisymm {s t : Text} (hst : le s t = true) (hts : le t s = true) : s = t := by
  induction s generalizing t with
  | nil =>
    cases t with
    | nil => rfl
    | cons b t => contradiction
  | cons a s ih =>
    cases t with
    | nil => contradiction
    | cons b t =>
      simp only [le, Bool.or_eq_true, Bool.and_eq_true, decide_eq_true_eq, beq_iff_eq] at hst hts
      have hab : a.toNat = b.toNat := by omega
      have hst := (hst.resolve_left (by omega)).2
      have hts := (hts.resolve_left (by omega)).2
      rw [toNat_injective hab, ih hst hts]

variable {α : Type} (key : α → Text)

theorem insertBy_perm (x : α) (ys : List α) : (insertBy key x ys).Perm (x :: ys) := by
  induction ys with
  | nil => exact .refl _
  | cons y ys ih =>
    rw [insertBy]
    split
    · exact .refl _
    · exact (ih.cons y).trans (.swap x y ys)

theorem insertBy_sorted (x : α) {ys : List α}
    (h : ys.Pairwise fun a b => le (key a) (key b) = true) :
    (insertBy key x ys).Pairwise fun a b => le (key a) (key b) = true := by
  induction ys with
  | nil => exact List.pairwise_singleton _ x
  | cons y ys ih =>
    obtain ⟨hy, hys⟩ := List.pairwise_cons.1 h
    rw [insertBy]
    split
    next hxy =>
      refine List.pairwise_cons.2 ⟨List.forall_mem_cons.2 ⟨hxy, fun b hb => ?_⟩, h⟩
      exact le_trans hxy (hy b hb)
    next hxy =>
      -- The order is total: if `x` does not come before `y`, then `y` comes before `x`.
      have hyx : le (key y) (key x) = true := (le_total (key x) (key y)).resolve_left hxy
      refine List.pairwise_cons.2 ⟨fun b hb => ?_, ih hys⟩
      rcases List.mem_cons.1 ((insertBy_perm key x ys).mem_iff.1 hb) with rfl | hb
      · exact hyx
      · exact hy b hb

theorem sortBy_perm (xs : List α) : (sortBy key xs).Perm xs := by
  induction xs with
  | nil => exact .refl _
  | cons x xs ih => exact (insertBy_perm key x _).trans (ih.cons x)

theorem sortBy_sorted (xs : List α) :
    (sortBy key xs).Pairwise fun a b => le (key a) (key b) = true := by
  induction xs with
  | nil => exact .nil
  | cons x xs ih => exact insertBy_sorted key x ih

end Text
end GoldenCheck
