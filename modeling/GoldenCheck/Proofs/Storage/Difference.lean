import GoldenCheck.Golden.Config
import GoldenCheck.Proofs.Storage.Listing

/-!
# File systems that differ in one file

Two file systems may differ in the presence and the content of one regular file and in nothing else.
They have the same directories, so that paths lead to the same locations, and whatever lies elsewhere is
read alike.  A write elsewhere keeps the difference as it is.
-/

namespace GoldenCheck
namespace FileSystem

/-! ## 1. Entries elsewhere -/

/-- At most the presence and the content of a regular file at `l` differ. -/
structure DifferAt (l : Location) (fs fs' : FileSystem) : Prop where
  workingDirectory : fs'.workingDirectory = fs.workingDirectory
  others : (fs'.entries.filter fun e => e.1 ≠ l) = fs.entries.filter fun e => e.1 ≠ l
  noDirectory : fs.lookup? l ≠ some .directory
  noDirectory' : fs'.lookup? l ≠ some .directory

theorem find?_filter {l m : Location} (h : m ≠ l) (es : List (Location × Entry)) :
    find? m (es.filter fun e => e.1 ≠ l) = find? m es := by
  induction es with
  | nil => rfl
  | cons e es ih =>
    by_cases he : e.1 = l
    · have hm : e.1 ≠ m := fun h' => h (h'.symm.trans he)
      simpa [he, find?, hm, Ne.symm h] using ih
    · rw [List.filter_cons_of_pos (by simpa using he), find?, find?, ih]

theorem filter_putIn {l m : Location} (h : m ≠ l) (x : Entry) (es : List (Location × Entry)) :
    ((putIn m x es).filter fun e => e.1 ≠ l) = putIn m x (es.filter fun e => e.1 ≠ l) := by
  -- Follows `putIn`; the entry at `l` is passed over on both sides, not being at `m`.
  induction es with
  | nil => simp [putIn, h]
  | cons e es ih =>
    by_cases he : e.1 = l
    · have hm : e.1 ≠ m := fun h' => h (h'.symm.trans he)
      rw [putIn, if_neg hm, List.filter_cons_of_neg (by simpa using he), ih,
        List.filter_cons_of_neg (by simpa using he)]
    · rw [List.filter_cons_of_pos (by simpa using he), putIn, putIn]
      split
      · rw [List.filter_cons_of_pos (by simpa using h)]
      · rw [List.filter_cons_of_pos (by simpa using he), ih]

theorem filter_namesIn (fs : FileSystem) (n : FileName) (up : Location) :
    (fs.namesIn up).filter (· ≠ n) =
      (fs.entries.filter fun e => e.1 ≠ n :: up).filterMap (nameIn up) := by
  rw [namesIn, List.filter_filterMap, List.filterMap_filter]
  congr 1
  funext e
  cases he : nameIn up e with
  | none => simp
  | some m =>
    have hm := nameIn_eq_some_iff.1 he
    by_cases hmn : m = n
    · simp [hm, hmn]
    · simp [hm, hmn]

namespace DifferAt

variable {l : Location} {fs fs' : FileSystem}

theorem lookup?_eq (h : DifferAt l fs fs') {m : Location} (hm : m ≠ l) :
    fs'.lookup? m = fs.lookup? m := by
  rw [lookup?, lookup?, ← find?_filter hm fs'.entries, h.others, find?_filter hm]

theorem sameDirectories (h : DifferAt l fs fs') : SameDirectories fs fs' where
  workingDirectory := h.workingDirectory
  directory m := by
    by_cases hm : m = l
    · rw [hm]
      exact iff_of_false h.noDirectory' h.noDirectory
    · rw [h.lookup?_eq hm]

theorem put (h : DifferAt l fs fs') {m : Location} (hm : m ≠ l) (x : Entry)
    (hv : Location.Valid m) : DifferAt l (fs.put m x hv) (fs'.put m x hv) where
  workingDirectory := h.workingDirectory
  others := by
    change ((putIn m x fs'.entries).filter fun e => e.1 ≠ l) =
      (putIn m x fs.entries).filter fun e => e.1 ≠ l
    rw [filter_putIn hm, filter_putIn hm, h.others]
  noDirectory := by
    rw [lookup?_put, if_neg hm.symm]
    exact h.noDirectory
  noDirectory' := by
    rw [lookup?_put, if_neg hm.symm]
    exact h.noDirectory'

end DifferAt

/-! ## 2. Reading and writing elsewhere -/

/-- The path leads to a directory other than the one that `l` is in. -/
def Apart (fs : FileSystem) (l : Location) (p : Path) : Prop :=
  ∃ d, fs.locate p = .ok d ∧ fs.lookup? d = some .directory ∧ d ≠ l.tail

theorem SameDirectories.apart {fs fs' : FileSystem} (h : SameDirectories fs fs') {l : Location}
    {p : Path} (hp : fs.Apart l p) : fs'.Apart l p := by
  obtain ⟨d, hd, hdir, hne⟩ := hp
  exact ⟨d, ((h.locate_alike p).ok_iff d).2 hd, (h.directory d).2 hdir, hne⟩

theorem Apart.ne_of_locate_child {fs : FileSystem} {l m : Location} {p : Path} (hp : fs.Apart l p)
    {t : Text} (ht : PlainName t) (hm : fs.locate (p.child t) = .ok m) : m ≠ l := by
  obtain ⟨d, hd, -, hne⟩ := hp
  obtain ⟨up, hup, -, rfl⟩ := ht.locate_child hm
  rintro rfl
  exact hne (Except.ok.inj (hd.symm.trans hup))

namespace DifferAt

variable {l : Location} {fs fs' : FileSystem}

section
variable (h : DifferAt l fs fs') {p : Path} (hp : fs.Apart l p) {t : Text} (ht : PlainName t)
include h hp ht

theorem locate_child_eq : fs'.locate (p.child t) = fs.locate (p.child t) := by
  obtain ⟨d, hd, hdir, -⟩ := hp
  exact h.sameDirectories.locate_child_eq (isDirectory?_eq_true_iff.2 ⟨d, hd, hdir⟩) ht

theorem stat_child_eq : fs'.stat (p.child t) = fs.stat (p.child t) := by
  simp only [stat, h.locate_child_eq hp ht]
  cases hm : fs.locate (p.child t) with
  | error r => rfl
  | ok m => simp only [h.lookup?_eq (hp.ne_of_locate_child ht hm)]

theorem present_child_eq : fs'.present (p.child t) = fs.present (p.child t) := by
  simp only [present, exists?, holds, h.stat_child_eq hp ht]

theorem readText_child_eq : fs'.readText (p.child t) = fs.readText (p.child t) := by
  simp only [readText, readFile, h.stat_child_eq hp ht]

end

end DifferAt

end FileSystem
end GoldenCheck
