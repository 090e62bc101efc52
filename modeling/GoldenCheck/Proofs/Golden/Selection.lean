import GoldenCheck.Proofs.Golden.Discovery

/-!
# Discovery is exact

Discovery shows the cases of a root, each once and in strict code point order of their names, in whatever
order the directory is listed, and a name selects the case that has it.  There is one exception: if a
path that is asked about on the way is too long, nothing is found and nothing selected.
-/

namespace GoldenCheck

/-! ## 1. Strict order -/

/-- Code point order of texts that are not the same. -/
def Text.Before (s t : Text) : Prop := s.map CodePoint.toNat < t.map CodePoint.toNat

theorem Text.before_of_le_of_ne {s t : Text} (h : Text.le s t = true) (hne : s ≠ t) : s.Before t := by
  unfold Text.Before
  induction s generalizing t with
  | nil =>
    cases t with
    | nil => contradiction
    | cons b t => exact List.nil_lt_cons _ _
  | cons a s ih =>
    cases t with
    | nil => contradiction
    | cons b t =>
      simp only [Text.le, Bool.or_eq_true, Bool.and_eq_true, decide_eq_true_eq, beq_iff_eq] at h
      rw [List.map_cons, List.map_cons, List.cons_lt_cons_iff]
      rcases h with hlt | ⟨heq, hle⟩
      · exact .inl hlt
      · obtain rfl := Text.toNat_injective heq
        exact .inr ⟨rfl, ih hle fun hst => hne (by rw [hst])⟩

theorem Text.Before.ne {s t : Text} (h : s.Before t) : s ≠ t := by
  rintro rfl
  exact List.lt_irrefl _ h

theorem Text.Before.asymm {s t : Text} (h : s.Before t) : ¬ t.Before s := List.lt_asymm h

namespace Golden

/-! ## 2. The listing of a root -/

/-- All cases of a root and nothing else, in strict code point order of their names. -/
structure IsListing (fs : FileSystem) (root : Path) (cases : List Path) : Prop where
  increasing : cases.Pairwise fun c d => c.name.Before d.name
  mem_iff : ∀ c, c ∈ cases ↔ ∃ up n, CaseAt fs root up n ∧ c = casePath root n

theorem IsListing.nodup {fs : FileSystem} {root : Path} {cases : List Path}
    (h : IsListing fs root cases) : cases.Nodup :=
  h.increasing.imp fun hbefore heq => hbefore.ne (congrArg Path.name heq)

/-- A root has one listing only. -/
theorem IsListing.unique {fs : FileSystem} {root : Path} {cs ds : List Path}
    (hcs : IsListing fs root cs) (hds : IsListing fs root ds) : cs = ds := by
  have hperm : cs.Perm ds := (List.perm_ext_iff_of_nodup hcs.nodup hds.nodup).2 fun c => by
    rw [hcs.mem_iff, hds.mem_iff]
  exact hperm.eq_of_pairwise (fun _ _ _ _ hcd hdc => absurd hdc hcd.asymm) hcs.increasing
    hds.increasing

/-- Among the cases of a listing are those of the names that entries with inputs have. -/
theorem IsListing.child_mem_iff {fs : FileSystem} {root : Path} {cases : List Path}
    (h : IsListing fs root cases) {t : Text} :
    root.child t ∈ cases ↔ ∃ up n, CaseAt fs root up n ∧ t = Utf8.decodeSystem n := by
  rw [h.mem_iff]
  constructor
  · rintro ⟨up, n, hcase, hpath⟩
    refine ⟨up, n, hcase, ?_⟩
    rw [← Path.name_child root t, hpath, casePath_name]
  · rintro ⟨up, n, hcase, rfl⟩
    exact ⟨up, n, hcase, rfl⟩

theorem findCases_isListing {fs : FileSystem} {root : Path} {cases : List Path}
    (h : findCases fs root = .ok cases) : IsListing fs root cases where
  mem_iff _ := mem_findCases h
  increasing := by
    refine List.Pairwise.imp_of_mem ?_ ((findCases_sorted h).and (findCases_nodup h))
    rintro c d hc hd ⟨hle, hne⟩
    refine Text.before_of_le_of_ne hle fun hname => hne ?_
    -- Two cases of one name are one case.
    obtain ⟨_, m, -, rfl⟩ := (mem_findCases h).1 hc
    obtain ⟨_, n, -, rfl⟩ := (mem_findCases h).1 hd
    rw [casePath_name, casePath_name] at hname
    rw [Utf8.decodeSystem_injective hname]

/-! ## 3. Selecting by name -/

section
variable {fs : FileSystem} {root : Path} {cases : List Path} (h : findCases fs root = .ok cases)
  {t : Text}
include h

theorem mem_filter_name {c : Path} :
    (c ∈ cases.filter fun c => c.name = t) ↔ root.child t ∈ cases ∧ c = root.child t := by
  rw [List.mem_filter, decide_eq_true_eq]
  constructor
  · rintro ⟨hc, rfl⟩
    obtain ⟨_, n, -, rfl⟩ := (mem_findCases h).1 hc
    rw [casePath_name]
    exact ⟨hc, rfl⟩
  · rintro ⟨hc, rfl⟩
    exact ⟨hc, Path.name_child root t⟩

/-- A name selects the case that has it. -/
theorem selectCases_of_mem (hmem : root.child t ∈ cases) (shown : Text) :
    selectCases fs root shown (some t) = .ok [root.child t] := by
  have honly : (cases.filter fun c => c.name = t) = [root.child t] := by
    rw [← List.perm_singleton, List.perm_ext_iff_of_nodup
      (List.Pairwise.filter _ (findCases_nodup h)) (List.pairwise_singleton _ _)]
    intro c
    rw [mem_filter_name h, List.mem_singleton, and_iff_right hmem]
  rw [selectCases, h, ok_bind]
  simp only [honly]

/-- A name that no case has selects nothing. -/
theorem selectCases_of_not_mem (hmem : root.child t ∉ cases) (shown : Text) :
    selectCases fs root shown (some t) = .error (.unknownCase t shown) := by
  have hnone : (cases.filter fun c => c.name = t) = [] := by
    rw [List.eq_nil_iff_forall_not_mem]
    intro c hc
    exact hmem ((mem_filter_name h).1 hc).1
  rw [selectCases, h, ok_bind]
  simp only [hnone]

end

/-! ## 4. Listings in another order -/

section
variable {fs fs' : FileSystem} (h : fs.Reordered fs') {root : Path}
include h

theorem CaseAt.reordered {up : Location} {n : FileName} (hcase : CaseAt fs root up n) :
    CaseAt fs' root up n where
  located := (h.locate_eq root).trans hcase.located
  root := (h.lookup?_eq up).trans hcase.root
  folder := (h.lookup?_eq _).trans hcase.folder
  inputs := by
    rw [h.lookup?_eq]
    exact hcase.inputs

theorem Overlong.reordered {p : Path} (hlong : Overlong fs root p) : Overlong fs' root p := by
  cases hlong with
  | root hlong => exact .root ((h.locate_eq root).trans hlong)
  | entry hup hroot hn hlong =>
    refine .entry ((h.locate_eq root).trans hup) ((h.lookup?_eq _).trans hroot) ?_
      ((h.locate_eq _).trans hlong)
    rw [FileSystem.mem_namesIn, h.lookup?_eq]
    exact FileSystem.mem_namesIn.1 hn
  | inputs hup hroot hentry hlong =>
    exact .inputs ((h.locate_eq root).trans hup) ((h.lookup?_eq _).trans hroot)
      ((h.lookup?_eq _).trans hentry) ((h.locate_eq _).trans hlong)

theorem IsListing.reordered {cases : List Path} (hcases : IsListing fs root cases) :
    IsListing fs' root cases where
  increasing := hcases.increasing
  mem_iff c := by
    rw [hcases.mem_iff]
    constructor
    · rintro ⟨up, n, hcase, rfl⟩
      exact ⟨up, n, hcase.reordered h, rfl⟩
    · rintro ⟨up, n, hcase, rfl⟩
      exact ⟨up, n, hcase.reordered h.symm, rfl⟩

/-- Where no path is too long, discovery succeeds in any order, with the one listing of the root. -/
theorem findCases_reordered (hshort : ¬ ∃ p, Overlong fs root p) :
    ∃ cases, findCases fs' root = .ok cases ∧ IsListing fs root cases := by
  cases hfind : findCases fs' root with
  | error f =>
    obtain ⟨p, hp, -⟩ := overlong_of_findCases hfind
    exact absurd ⟨p, hp.reordered h.symm⟩ hshort
  | ok cases => exact ⟨cases, rfl, (findCases_isListing hfind).reordered h.symm⟩

end

/-- Discovery gives the one listing of the root in any order in which the directory is listed, empty
if the root is no directory, and a name selects the case that has it and nothing else; or, if a path
that is asked about is refused as too long, discovery and selection fail for such a path. -/
theorem discovery_exact (fs : FileSystem) (root : Path) :
    ((∃ p, Overlong fs root p) ∧
      ∀ fs', fs.Reordered fs' → ∃ p, Overlong fs root p ∧ p.TooLong ∧
        findCases fs' root = .error (.refused .nameTooLong p.toText) ∧
        ∀ shown name,
          selectCases fs' root shown name = .error (.refused .nameTooLong p.toText)) ∨
    ((¬ ∃ p, Overlong fs root p) ∧
      ∃ cases, IsListing fs root cases ∧ (∀ cs, IsListing fs root cs → cs = cases) ∧
        (fs.isDirectory? root ≠ .ok true → cases = []) ∧
        ∀ fs', fs.Reordered fs' → findCases fs' root = .ok cases ∧
          ∀ shown t,
            ((∃ up n, CaseAt fs root up n ∧ t = Utf8.decodeSystem n) →
              selectCases fs' root shown (some t) = .ok [root.child t]) ∧
            ((¬ ∃ up n, CaseAt fs root up n ∧ t = Utf8.decodeSystem n) →
              selectCases fs' root shown (some t) = .error (.unknownCase t shown))) := by
  by_cases hlong : ∃ p, Overlong fs root p
  · refine .inl ⟨hlong, fun fs' h => ?_⟩
    obtain ⟨q, hq⟩ := hlong
    cases hfind : findCases fs' root with
    | ok cases => exact absurd hfind ((hq.reordered h).findCases_ne_ok cases)
    | error f =>
      obtain ⟨p, hp, rfl⟩ := overlong_of_findCases hfind
      refine ⟨p, hp.reordered h.symm, hp.tooLong, rfl, fun shown name => ?_⟩
      rw [selectCases, hfind, error_bind]
  · obtain ⟨cases, -, hlisting⟩ := findCases_reordered (.refl fs) hlong
    refine .inr ⟨hlong, cases, hlisting, fun cs hcs => hcs.unique hlisting, fun hroot => ?_,
      fun fs' h => ?_⟩
    · rw [List.eq_nil_iff_forall_not_mem]
      intro c hc
      obtain ⟨up, n, hcase, -⟩ := (hlisting.mem_iff c).1 hc
      exact hroot (FileSystem.isDirectory?_eq_true_iff.2 ⟨up, hcase.located, hcase.root⟩)
    · obtain ⟨found, hfound, hlisting'⟩ := findCases_reordered h hlong
      obtain rfl := hlisting'.unique hlisting
      refine ⟨hfound, fun shown t => ?_⟩
      rw [← hlisting.child_mem_iff]
      exact ⟨fun hmem => selectCases_of_mem hfound hmem shown,
        fun hmem => selectCases_of_not_mem hfound hmem shown⟩

/-! ## 5. A case whose path is too long -/

/-- A directory of the working directory. -/
def hall : Text := List.replicate 211 (.char 'a')

/-- A path to `hall`, again and again through itself: with 4081 bytes it leaves room for 14 more. -/
def detour : Path := ⟨.relative, (List.replicate 18 [hall, ".."]).flatten ++ [hall]⟩

/-- The directory `hall` with one case. -/
def farCase : FileSystem where
  entries :=
    [([Utf8.encodeSystem hall], .directory),
      ([Utf8.encodeSystem "overlong-entry", Utf8.encodeSystem hall], .directory),
      ([inputsName, Utf8.encodeSystem "overlong-entry", Utf8.encodeSystem hall],
        .file (Utf8.encodeSystem "[2]"))]
  workingDirectory := []
  distinct := by decide +kernel
  valid := by decide +kernel

/-- A root can have a case and discovery yet find nothing, because the path of the case is too long. -/
theorem farCase_stops_discovery :
    CaseAt farCase detour [Utf8.encodeSystem hall] (Utf8.encodeSystem "overlong-entry") ∧
      ¬ ∃ cases, findCases farCase detour = .ok cases := by
  have hup : farCase.locate detour = .ok [Utf8.encodeSystem hall] := by decide +kernel
  have hroot : farCase.lookup? [Utf8.encodeSystem hall] = some .directory := by decide +kernel
  have hlong : farCase.locate (casePath detour (Utf8.encodeSystem "overlong-entry")) =
      .error .nameTooLong := by decide +kernel
  refine ⟨⟨hup, hroot, by decide +kernel, by decide +kernel⟩, ?_⟩
  rintro ⟨cases, hcases⟩
  exact (Overlong.entry hup hroot (by decide +kernel) hlong).findCases_ne_ok cases hcases

end Golden
end GoldenCheck
