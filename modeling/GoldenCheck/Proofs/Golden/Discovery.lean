import GoldenCheck.Proofs.Golden.Rebuild
import GoldenCheck.Proofs.Storage.Listing
import GoldenCheck.Proofs.Text.Order

/-!
# Which cases are found

The cases of a root are its entries that are directories and hold an entry for the inputs.
Discovery finds each of them and nothing else; the only thing that can end it is a path that is too
long.
-/

namespace GoldenCheck
namespace Golden

open FileSystem (PlainName)

/-! ## 1. Cases of a root -/

/-- The root is the directory at `up`, and its entry `n` is a directory that holds inputs. -/
structure CaseAt (fs : FileSystem) (root : Path) (up : Location) (n : FileName) : Prop where
  located : fs.locate root = .ok up
  root : fs.lookup? up = some .directory
  folder : fs.lookup? (n :: up) = some .directory
  inputs : fs.lookup? (inputsName :: n :: up) ≠ none

/-- The path of the entry `n` of a root. -/
def casePath (root : Path) (n : FileName) : Path := root.child (Utf8.decodeSystem n)

theorem casePath_name (root : Path) (n : FileName) :
    (casePath root n).name = Utf8.decodeSystem n :=
  Path.name_child root _

theorem casePath_injective {root : Path} {m n : FileName} (h : casePath root m = casePath root n) :
    m = n := by
  apply Utf8.decodeSystem_injective
  rw [← casePath_name root m, h, casePath_name]

namespace CaseAt

variable {fs : FileSystem} {root : Path} {up : Location} {n : FileName}

theorem mem_namesIn (h : CaseAt fs root up n) : n ∈ fs.namesIn up :=
  FileSystem.mem_namesIn.2 (by simp [h.folder])

theorem valid (h : CaseAt fs root up n) : FileName.Valid n :=
  FileSystem.valid_of_mem_namesIn h.mem_namesIn

end CaseAt

/-! ## 2. Asking whether an entry is a case -/

/-- The questions whether an entry is a case: whether it is a directory, and then whether it holds
an entry for the inputs.  Each can be refused. -/
theorem isCase_eq_error_iff {fs : FileSystem} {p : Path} {f : Fault} :
    isCase fs p = .error f ↔
      fs.locate p = .error .nameTooLong ∧ f = .refused .nameTooLong p.toText ∨
      fs.isFolder p = .ok true ∧ fs.locate (p.child inputsFile) = .error .nameTooLong ∧
        f = .refused .nameTooLong (p.child inputsFile).toText := by
  rw [isCase, bind_eq_error_iff, FileSystem.isFolder_eq_error_iff]
  refine or_congr_right ⟨?_, fun h => ⟨true, h.1, FileSystem.present_eq_error_iff.2 h.2⟩⟩
  rintro ⟨b, hb, h⟩
  cases b with
  | false => cases h
  | true => exact ⟨hb, FileSystem.present_eq_error_iff.1 h⟩

section
variable {fs : FileSystem} {root : Path} {up : Location} (hup : fs.locate root = .ok up)
  (hroot : fs.lookup? up = some .directory) {n : FileName} (hn : FileName.Valid n)
include hup hroot hn

theorem locate_casePath :
    fs.locate (casePath root n) = .ok (n :: up) ∨
      fs.locate (casePath root n) = .error .nameTooLong := by
  have hchild := (FileSystem.plainName_decodeSystem hn).locate_child_of hup hroot
  rwa [Utf8.encodeSystem_decodeSystem] at hchild

/-- The answer whether an entry is a case is right, or its path is too long or that of its
inputs. -/
theorem isCase_casePath :
    (∃ b, isCase fs (casePath root n) = .ok b ∧ (b = true ↔ CaseAt fs root up n)) ∨
      ∃ p : Path, (p = casePath root n ∨
          fs.lookup? (n :: up) = some .directory ∧ p = (casePath root n).child inputsFile) ∧
        p.TooLong ∧ isCase fs (casePath root n) = .error (.refused .nameTooLong p.toText) := by
  rcases locate_casePath hup hroot hn with hl | hl
  · by_cases hfolder : fs.lookup? (n :: up) = some .directory
    · have hask : fs.isFolder (casePath root n) = .ok true :=
        FileSystem.isFolder_eq_true_iff.2 ⟨_, hl, hfolder⟩
      rw [isCase, hask, ok_bind, if_pos rfl]
      -- The inputs are asked for only once the entry is known to be a directory.
      rcases inputsFile_plain.locate_child_of hl hfolder with hi | hi
      · rw [FileSystem.present_of_locate hi]
        refine .inl ⟨_, rfl, ?_⟩
        cases hinputs : fs.lookup? (Utf8.encodeSystem inputsFile :: n :: up) with
        | none => exact iff_of_false Bool.false_ne_true fun h => h.inputs hinputs
        | some x =>
          have hpresent : fs.lookup? (Utf8.encodeSystem inputsFile :: n :: up) ≠ none := by
            simp [hinputs]
          exact iff_of_true rfl ⟨hup, hroot, hfolder, hpresent⟩
      · rw [FileSystem.present_eq_error_iff.2 ⟨hi, rfl⟩]
        exact .inr ⟨_, .inr ⟨hfolder, rfl⟩, FileSystem.tooLong_of_locate hi, rfl⟩
    · rw [isCase, FileSystem.isFolder_of_not_directory hl hfolder, ok_bind, if_neg Bool.false_ne_true]
      exact .inl ⟨false, rfl, iff_of_false Bool.false_ne_true fun h => hfolder h.folder⟩
  · rw [isCase, FileSystem.isFolder_eq_error_iff.2 ⟨hl, rfl⟩, error_bind]
    exact .inr ⟨_, .inl rfl, FileSystem.tooLong_of_locate hl, rfl⟩

end

/-! ## 3. Keeping the cases -/

theorem keepCases_eq_filter {fs : FileSystem} {ps cs : List Path} (h : keepCases fs ps = .ok cs) :
    cs = ps.filter fun p => isCase fs p = .ok true := by
  induction ps generalizing cs with
  | nil => cases h; rfl
  | cons p ps ih =>
    obtain ⟨b, hb, h⟩ := bind_eq_ok_iff.1 h
    obtain ⟨rest, hrest, h⟩ := bind_eq_ok_iff.1 h
    cases h
    rw [ih hrest, List.filter_cons, hb]
    cases b <;> simp

theorem keepCases_eq_error {fs : FileSystem} {ps : List Path} {f : Fault}
    (h : keepCases fs ps = .error f) : ∃ p ∈ ps, isCase fs p = .error f := by
  induction ps with
  | nil => cases h
  | cons p ps ih =>
    rcases bind_eq_error_iff.1 h with hp | ⟨b, -, h⟩
    · exact ⟨p, List.mem_cons_self, hp⟩
    · rcases bind_eq_error_iff.1 h with hps | ⟨rest, -, h⟩
      · obtain ⟨q, hq, hf⟩ := ih hps
        exact ⟨q, List.mem_cons_of_mem _ hq, hf⟩
      · cases h

/-! ## 4. Finding the cases -/

theorem findCases_of_directory {fs : FileSystem} {root : Path} {up : Location}
    (hup : fs.locate root = .ok up) (hroot : fs.lookup? up = some .directory) :
    findCases fs root = keepCases fs ((fs.namesIn up).map (casePath root)) >>= fun kept =>
      .ok (Text.sortBy Path.name kept) := by
  have hfolder := FileSystem.isFolder_eq_true_iff.2 ⟨up, hup, hroot⟩
  rw [findCases, hfolder, ok_bind, if_pos rfl]
  simp only [entriesOf, FileSystem.list, hup, hroot]
  rfl

/-- What discovery comes to: a path that is too long, a root that is no directory, or the entries of
the root that are kept. -/
theorem findCases_eq_cases (fs : FileSystem) (root : Path) :
    (root.TooLong ∧ findCases fs root = .error (.refused .nameTooLong root.toText)) ∨
    (findCases fs root = .ok [] ∧ fs.isFolder root = .ok false) ∨
    ∃ up, fs.locate root = .ok up ∧ fs.lookup? up = some .directory ∧
      findCases fs root = keepCases fs ((fs.namesIn up).map (casePath root)) >>= fun kept =>
        .ok (Text.sortBy Path.name kept) := by
  unfold findCases
  cases hfolder : fs.isFolder root with
  | error f =>
    obtain ⟨hlong, rfl⟩ := FileSystem.isFolder_eq_error_iff.1 hfolder
    exact .inl ⟨FileSystem.tooLong_of_locate hlong, rfl⟩
  | ok b =>
    cases b with
    | false => exact .inr (.inl ⟨rfl, rfl⟩)
    | true =>
      obtain ⟨up, hup, hroot⟩ := FileSystem.isFolder_eq_true_iff.1 hfolder
      have hfind := findCases_of_directory hup hroot
      rw [findCases, hfolder] at hfind
      exact .inr (.inr ⟨up, hup, hroot, hfind⟩)

/-- Discovery finds the cases of the root and nothing else. -/
theorem mem_findCases {fs : FileSystem} {root : Path} {cases : List Path}
    (h : findCases fs root = .ok cases) {c : Path} :
    c ∈ cases ↔ ∃ up n, CaseAt fs root up n ∧ c = casePath root n := by
  rcases findCases_eq_cases fs root with ⟨-, hlong⟩ | ⟨hnone, hfolder⟩ | ⟨up, hup, hroot, hkeep⟩
  · rw [hlong] at h
    contradiction
  · rw [hnone] at h
    cases h
    refine iff_of_false nofun ?_
    rintro ⟨up, n, hcase, -⟩
    rw [FileSystem.isFolder_eq_true_iff.2 ⟨up, hcase.located, hcase.root⟩] at hfolder
    contradiction
  · rw [hkeep] at h
    obtain ⟨kept, hkept, h⟩ := bind_eq_ok_iff.1 h
    cases h
    -- Nothing was refused, so that every answer about an entry was right.
    have hright : ∀ n ∈ fs.namesIn up,
        isCase fs (casePath root n) = .ok true ↔ CaseAt fs root up n := by
      intro n hn
      obtain ⟨b, hb⟩ := isCase_of_keepCases hkept _ (List.mem_map_of_mem hn)
      rcases isCase_casePath hup hroot (FileSystem.valid_of_mem_namesIn hn) with
        ⟨b', hb', hiff⟩ | ⟨p, -, -, hp⟩
      · rw [hb', Except.ok.injEq, hiff]
      · rw [hp] at hb
        contradiction
    rw [(Text.sortBy_perm Path.name kept).mem_iff, keepCases_eq_filter hkept, List.mem_filter,
      List.mem_map]
    constructor
    · rintro ⟨⟨n, hn, rfl⟩, hcase⟩
      exact ⟨up, n, (hright n hn).1 (of_decide_eq_true hcase), rfl⟩
    · rintro ⟨up', n, hcase, rfl⟩
      obtain rfl : up' = up := Except.ok.inj (hcase.located.symm.trans hup)
      exact ⟨⟨n, hcase.mem_namesIn, rfl⟩, decide_eq_true ((hright n hcase.mem_namesIn).2 hcase)⟩

/-- What is found is a case by the question that was asked about it. -/
theorem isCase_of_mem_findCases {fs : FileSystem} {root : Path} {cases : List Path}
    (h : findCases fs root = .ok cases) {c : Path} (hc : c ∈ cases) : isCase fs c = .ok true := by
  obtain ⟨b, -, h⟩ := bind_eq_ok_iff.1 h
  cases b with
  | false => cases h; contradiction
  | true =>
    obtain ⟨ps, -, h⟩ := bind_eq_ok_iff.1 h
    obtain ⟨kept, hkept, h⟩ := bind_eq_ok_iff.1 h
    cases h
    rw [(Text.sortBy_perm Path.name kept).mem_iff, keepCases_eq_filter hkept, List.mem_filter] at hc
    exact of_decide_eq_true hc.2

/-- The path of a case that is found leads to it. -/
theorem locate_of_mem_findCases {fs : FileSystem} {root : Path} {cases : List Path}
    (h : findCases fs root = .ok cases) {up : Location} {n : FileName} (hcase : CaseAt fs root up n)
    (hmem : casePath root n ∈ cases) : fs.locate (casePath root n) = .ok (n :: up) := by
  rcases locate_casePath hcase.located hcase.root hcase.valid with hat | hlong
  · exact hat
  · -- Otherwise the question whether it is a directory would have ended discovery.
    obtain ⟨b, hask, -⟩ := bind_eq_ok_iff.1 (isCase_of_mem_findCases h hmem)
    rw [FileSystem.isFolder_eq_error_iff.2 ⟨hlong, rfl⟩] at hask
    contradiction

theorem findCases_nodup {fs : FileSystem} {root : Path} {cases : List Path}
    (h : findCases fs root = .ok cases) : cases.Nodup := by
  rcases findCases_eq_cases fs root with ⟨-, hlong⟩ | ⟨hnone, -⟩ | ⟨up, -, -, hkeep⟩
  · rw [hlong] at h
    contradiction
  · rw [hnone] at h
    cases h
    exact .nil
  · rw [hkeep] at h
    obtain ⟨kept, hkept, h⟩ := bind_eq_ok_iff.1 h
    cases h
    rw [(Text.sortBy_perm Path.name kept).nodup_iff, keepCases_eq_filter hkept]
    have hpaths : ((fs.namesIn up).map (casePath root)).Nodup :=
      List.pairwise_map.2 (List.Pairwise.imp (fun hne he => hne (casePath_injective he))
        (fs.namesIn_nodup up))
    exact List.Pairwise.filter _ hpaths

/-! ## 5. What ends discovery -/

/-- The paths that end discovery by their length: that of the root, of an entry of it, or of the
inputs of a directory in it. -/
inductive Overlong (fs : FileSystem) (root : Path) : Path → Prop
  | root : fs.locate root = .error .nameTooLong → Overlong fs root root
  | entry {up : Location} {n : FileName} : fs.locate root = .ok up →
    fs.lookup? up = some .directory → n ∈ fs.namesIn up →
    fs.locate (casePath root n) = .error .nameTooLong → Overlong fs root (casePath root n)
  | inputs {up : Location} {n : FileName} : fs.locate root = .ok up →
    fs.lookup? up = some .directory → fs.lookup? (n :: up) = some .directory →
    fs.locate ((casePath root n).child inputsFile) = .error .nameTooLong →
    Overlong fs root ((casePath root n).child inputsFile)

section
variable {fs : FileSystem} {root p : Path}

theorem Overlong.tooLong (h : Overlong fs root p) : p.TooLong := by
  cases h with
  | root h => exact FileSystem.tooLong_of_locate h
  | entry _ _ _ h => exact FileSystem.tooLong_of_locate h
  | inputs _ _ _ h => exact FileSystem.tooLong_of_locate h

/-- Discovery is ended by nothing but a path that is too long. -/
theorem overlong_of_findCases {f : Fault} (h : findCases fs root = .error f) :
    ∃ p, Overlong fs root p ∧ f = .refused .nameTooLong p.toText := by
  rcases bind_eq_error_iff.1 h with hfolder | ⟨b, hfolder, hrest⟩
  · obtain ⟨hlong, rfl⟩ := FileSystem.isFolder_eq_error_iff.1 hfolder
    exact ⟨root, .root hlong, rfl⟩
  · cases b with
    | false => cases hrest
    | true =>
      obtain ⟨up, hup, hroot⟩ := FileSystem.isFolder_eq_true_iff.1 hfolder
      rw [findCases_of_directory hup hroot] at h
      rcases bind_eq_error_iff.1 h with hkept | ⟨kept, -, h⟩
      · obtain ⟨q, hq, hf⟩ := keepCases_eq_error hkept
        obtain ⟨n, hn, rfl⟩ := List.mem_map.1 hq
        rcases isCase_eq_error_iff.1 hf with ⟨hlong, rfl⟩ | ⟨hdir, hlong, rfl⟩
        · exact ⟨_, .entry hup hroot hn hlong, rfl⟩
        · obtain ⟨l, hl, hentry⟩ := FileSystem.isFolder_eq_true_iff.1 hdir
          rcases locate_casePath hup hroot (FileSystem.valid_of_mem_namesIn hn) with hat | hlong'
          · obtain rfl : n :: up = l := Except.ok.inj (hat.symm.trans hl)
            exact ⟨_, .inputs hup hroot hentry hlong, rfl⟩
          · rw [hlong'] at hl
            contradiction
      · cases h

/-- A path that is too long ends discovery, wherever in the listing its entry comes. -/
theorem Overlong.findCases_ne_ok (h : Overlong fs root p) (cases : List Path) :
    findCases fs root ≠ .ok cases := by
  have stops : ∀ {up : Location} {n : FileName} {f : Fault}, fs.locate root = .ok up →
      fs.lookup? up = some .directory → n ∈ fs.namesIn up →
      isCase fs (casePath root n) = .error f → findCases fs root ≠ .ok cases := by
    intro up n f hup hroot hn hask hok
    rw [findCases_of_directory hup hroot] at hok
    obtain ⟨kept, hkept, -⟩ := bind_eq_ok_iff.1 hok
    obtain ⟨b, hb⟩ := isCase_of_keepCases hkept _ (List.mem_map_of_mem hn)
    rw [hask] at hb
    contradiction
  cases h with
  | root hlong =>
    rw [findCases, FileSystem.isFolder_eq_error_iff.2 ⟨hlong, rfl⟩, error_bind]
    exact nofun
  | entry hup hroot hn hlong =>
    exact stops hup hroot hn (isCase_eq_error_iff.2 (.inl ⟨hlong, rfl⟩))
  | @inputs up n hup hroot hentry hlong =>
    have hn : n ∈ fs.namesIn up := FileSystem.mem_namesIn.2 (by simp [hentry])
    -- If the path of the entry itself is too long, that comes first.
    rcases locate_casePath hup hroot (FileSystem.valid_of_mem_namesIn hn) with hat | hlong'
    · have hdir := FileSystem.isFolder_eq_true_iff.2 ⟨_, hat, hentry⟩
      exact stops hup hroot hn (isCase_eq_error_iff.2 (.inr ⟨hdir, hlong, rfl⟩))
    · exact stops hup hroot hn (isCase_eq_error_iff.2 (.inl ⟨hlong', rfl⟩))

end

/-- The paths that discovery asks about: the root, its entries and the inputs of its directories. -/
inductive Meets (fs : FileSystem) (root : Path) : Path → Prop
  | root : Meets fs root root
  | entry {up : Location} {n : FileName} : fs.locate root = .ok up → n ∈ fs.namesIn up →
    Meets fs root (casePath root n)
  | inputs {up : Location} {n : FileName} : fs.locate root = .ok up →
    fs.lookup? (n :: up) = some .directory → Meets fs root ((casePath root n).child inputsFile)

/-- The only thing that ends discovery is a path that is too long, among those that it meets. -/
theorem findCases_eq_error {fs : FileSystem} {root : Path} {f : Fault}
    (h : findCases fs root = .error f) :
    ∃ p : Path, Meets fs root p ∧ p.TooLong ∧ f = .refused .nameTooLong p.toText := by
  obtain ⟨p, hp, rfl⟩ := overlong_of_findCases h
  refine ⟨p, ?_, hp.tooLong, rfl⟩
  cases hp with
  | root => exact .root
  | entry hup _ hn => exact .entry hup hn
  | inputs hup _ hfolder => exact .inputs hup hfolder

/-! ## 6. The order of cases -/

theorem findCases_sorted {fs : FileSystem} {root : Path} {cases : List Path}
    (h : findCases fs root = .ok cases) :
    cases.Pairwise fun c d => Text.le c.name d.name = true := by
  obtain ⟨b, -, h⟩ := bind_eq_ok_iff.1 h
  cases b with
  | false => cases h; exact .nil
  | true =>
    obtain ⟨ps, -, h⟩ := bind_eq_ok_iff.1 h
    obtain ⟨kept, -, h⟩ := bind_eq_ok_iff.1 h
    cases h
    exact Text.sortBy_sorted Path.name kept

/-- What is selected is found, and of the name that was asked for. -/
theorem selectCases_eq_ok {fs : FileSystem} {root : Path} {shown : Text} {name : Option Text}
    {cases : List Path} (h : selectCases fs root shown name = .ok cases) :
    ∃ found, findCases fs root = .ok found ∧ cases.Sublist found ∧
      ∀ c ∈ cases, ∀ t, name = some t → c.name = t := by
  obtain ⟨found, hfound, h⟩ := bind_eq_ok_iff.1 h
  refine ⟨found, hfound, ?_⟩
  cases name with
  | none =>
    cases h
    exact ⟨List.Sublist.refl _, nofun⟩
  | some t =>
    simp only at h
    split at h
    · contradiction
    · cases h
      refine ⟨List.filter_sublist, fun c hc s hs => ?_⟩
      cases hs
      exact of_decide_eq_true (List.mem_filter.1 hc).2

theorem selectCases_sorted {fs : FileSystem} {root : Path} {shown : Text} {name : Option Text}
    {cases : List Path} (h : selectCases fs root shown name = .ok cases) :
    cases.Pairwise fun c d => Text.le c.name d.name = true := by
  obtain ⟨found, hfound, hsub, -⟩ := selectCases_eq_ok h
  exact (findCases_sorted hfound).sublist hsub

/-- File systems in which a root has the same cases show the same cases in the same order. -/
theorem findCases_unique {fs fs' : FileSystem} {root : Path} {cs ds : List Path}
    (hcs : findCases fs root = .ok cs) (hds : findCases fs' root = .ok ds)
    (h : ∀ n, (∃ up, CaseAt fs root up n) ↔ ∃ up, CaseAt fs' root up n) : cs = ds := by
  have hmem : ∀ c, c ∈ cs ↔ c ∈ ds := by
    intro c
    rw [mem_findCases hcs, mem_findCases hds]
    constructor
    · rintro ⟨up, n, hcase, rfl⟩
      obtain ⟨up', hcase'⟩ := (h n).1 ⟨up, hcase⟩
      exact ⟨up', n, hcase', rfl⟩
    · rintro ⟨up, n, hcase, rfl⟩
      obtain ⟨up', hcase'⟩ := (h n).2 ⟨up, hcase⟩
      exact ⟨up', n, hcase', rfl⟩
  have hperm : cs.Perm ds :=
    (List.perm_ext_iff_of_nodup (findCases_nodup hcs) (findCases_nodup hds)).2 hmem
  refine hperm.eq_of_pairwise ?_ (findCases_sorted hcs) (findCases_sorted hds)
  -- Two cases of one name are one case.
  intro c d hc hd hle hge
  obtain ⟨_, m, -, rfl⟩ := (mem_findCases hcs).1 hc
  obtain ⟨_, n, -, rfl⟩ := (mem_findCases hds).1 hd
  have hname := Text.le_antisymm hle hge
  rw [casePath_name, casePath_name] at hname
  rw [Utf8.decodeSystem_injective hname]

/-! ## 7. Selecting cases -/

/-- What is selected are cases of the root, of the name that was asked for. -/
theorem mem_selectCases {fs : FileSystem} {root : Path} {shown : Text} {name : Option Text}
    {cases : List Path} (h : selectCases fs root shown name = .ok cases) {c : Path}
    (hc : c ∈ cases) :
    ∃ up n, CaseAt fs root up n ∧ c = casePath root n ∧ fs.locate c = .ok (n :: up) ∧
      ∀ t, name = some t → t = Utf8.decodeSystem n := by
  obtain ⟨found, hfound, hsub, hname⟩ := selectCases_eq_ok h
  obtain ⟨up, n, hcase, rfl⟩ := (mem_findCases hfound).1 (hsub.subset hc)
  refine ⟨up, n, hcase, rfl, locate_of_mem_findCases hfound hcase (hsub.subset hc), ?_⟩
  intro t ht
  rw [← hname _ hc t ht, casePath_name]

end Golden
end GoldenCheck
