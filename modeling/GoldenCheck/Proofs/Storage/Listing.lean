import GoldenCheck.Proofs.Storage.Writing
import GoldenCheck.Proofs.Text.Decoding

/-!
# Names in a directory

A directory lists each of its names once.  The text of a listed name, whatever its bytes, leads back
to the entry that has it, unless the path becomes too long.  The order of a listing tells nothing
about the entries.
-/

namespace GoldenCheck

/-- A path that is refused for its length or for that of a name on it. -/
def Path.TooLong (p : Path) : Prop :=
  FileSystem.maxPathLength < (Utf8.encodeSystem p.toText).length ∨
    ∃ s ∈ p.parts, FileName.maxLength < (Utf8.encodeSystem s).length

namespace FileSystem

/-! ## 1. The text of a name -/

theorem mem_encodeSystem {t : Text} {c : Char} (h : .char c ∈ t) {b : UInt8}
    (hb : b ∈ String.utf8EncodeChar c) : b ∈ Utf8.encodeSystem t :=
  List.mem_flatMap.2 ⟨.char c, h, hb⟩

/-- A name that an entry can have is plain as a text. -/
theorem plainName_decodeSystem {n : FileName} (h : FileName.Valid n) :
    PlainName (Utf8.decodeSystem n) where
  encodable := Utf8.systemError?_decodeSystem n
  noNull hmem := by
    have hzero : (0 : UInt8) ∈ Utf8.encodeSystem (Utf8.decodeSystem n) :=
      mem_encodeSystem hmem (by decide)
    rw [Utf8.encodeSystem_decodeSystem] at hzero
    exact h.2.2.2.2.1 hzero
  valid := by rwa [Utf8.encodeSystem_decodeSystem]

theorem slash_not_mem_decodeSystem {n : FileName} (h : FileName.Valid n) :
    Path.slash ∉ Utf8.decodeSystem n := by
  intro hmem
  have hslash : (0x2F : UInt8) ∈ Utf8.encodeSystem (Utf8.decodeSystem n) :=
    mem_encodeSystem hmem (by decide)
  rw [Utf8.encodeSystem_decodeSystem] at hslash
  exact h.2.2.2.1 hslash

/-- An entry with a plain name is found in the directory of its path, unless that becomes too
long. -/
theorem PlainName.locate_child_of {t : Text} (ht : PlainName t) {fs : FileSystem} {p : Path}
    {up : Location} (hup : fs.locate p = .ok up) (hdir : fs.lookup? up = some .directory) :
    fs.locate (p.child t) = .ok (Utf8.encodeSystem t :: up) ∨
      fs.locate (p.child t) = .error .nameTooLong := by
  cases hn : fileNames (p.child t) with
  | ok ns =>
    -- The last step is taken from the directory, where a plain name leads to its entry.
    have hlen : ¬ FileName.maxLength < (Utf8.encodeSystem t).length :=
      Nat.not_lt.2 ht.valid.2.2.2.2.2
    left
    rw [locate_child_eq hn, hup]
    simp only [enter, hdir, if_neg ht.valid.2.2.1, if_neg hlen]
  | error r =>
    right
    have hlead : Utf8.systemError? p.lead = none ∧ .char '\x00' ∉ p.lead := by
      have hp : ∃ ns, fileNames p = .ok ns := by
        unfold locate at hup
        split at hup
        · contradiction
        next ns hns => exact ⟨ns, hns⟩
      obtain ⟨ns, hns⟩ := hp
      obtain ⟨herr, hnull, -, -⟩ := fileNames_eq_ok_iff.1 hns
      unfold Path.lead
      split
      · cases p.anchor <;> decide
      · refine ⟨(Utf8.systemError?_append _ _).2 ⟨herr, by decide⟩, fun hm => ?_⟩
        exact (List.mem_append.1 hm).elim hnull (by decide)
    have hlong : fileNames (p.child t) = .error .nameTooLong := by
      rw [fileNames_tooLong_iff, Path.toText_child]
      have herr := (Utf8.systemError?_append p.lead t).2 ⟨hlead.1, ht.encodable⟩
      have hnull : .char '\x00' ∉ p.lead ++ t :=
        fun hm => (List.mem_append.1 hm).elim hlead.2 ht.noNull
      refine ⟨herr, hnull, Nat.lt_of_not_le fun hle => ?_⟩
      have hok : fileNames (p.child t) = .ok ((p.child t).parts.map Utf8.encodeSystem) := by
        rw [fileNames_eq_ok_iff, Path.toText_child]
        exact ⟨herr, hnull, hle, rfl⟩
      rw [hok] at hn
      contradiction
    simp only [locate, hlong]

/-- Where a path leads to a directory, file systems with the same directories agree on the way to an
entry of it, and on the refusal if there is none. -/
theorem SameDirectories.locate_child_eq {fs fs' : FileSystem} (h : SameDirectories fs fs') {p : Path}
    (hp : fs.isDirectory? p = .ok true) {t : Text} (ht : PlainName t) :
    fs'.locate (p.child t) = fs.locate (p.child t) := by
  obtain ⟨d, hd, hdir⟩ := isDirectory?_eq_true_iff.1 hp
  rcases h.locate_alike (p.child t) with heq | ⟨r, s, -, hs, -, habsent⟩
  · exact heq
  · -- In a directory that exists no name is absent for want of a directory.
    rcases ht.locate_child_of hd hdir with hok | hlong
    · rw [hok] at hs
      contradiction
    · rw [hlong] at hs
      cases hs
      contradiction

/-! ## 2. Refusals for length -/

theorem enter_tooLong {fs : FileSystem} {l : Location} {n : FileName}
    (h : fs.enter l n = .error .nameTooLong) : FileName.maxLength < n.length := by
  unfold enter at h
  split at h
  · contradiction
  · contradiction
  · split at h
    · contradiction
    · split at h
      next hlong => exact hlong
      next => contradiction

theorem walk_tooLong {fs : FileSystem} {l : Location} {ns : List FileName}
    (h : fs.walk l ns = .error .nameTooLong) : ∃ n ∈ ns, FileName.maxLength < n.length := by
  induction ns generalizing l with
  | nil => contradiction
  | cons n ns ih =>
    simp only [walk] at h
    split at h
    next hn =>
      cases h
      exact ⟨n, List.mem_cons_self, enter_tooLong hn⟩
    next =>
      obtain ⟨m, hm, hlong⟩ := ih h
      exact ⟨m, List.mem_cons_of_mem n hm, hlong⟩

/-- A path is refused as too long only if it is. -/
theorem tooLong_of_locate {fs : FileSystem} {p : Path} (h : fs.locate p = .error .nameTooLong) :
    p.TooLong := by
  unfold locate at h
  split at h
  next hn =>
    cases h
    exact .inl (fileNames_tooLong_iff.1 hn).2.2
  next ns hns =>
    obtain ⟨-, -, -, rfl⟩ := fileNames_eq_ok_iff.1 hns
    obtain ⟨n, hn, hlong⟩ := walk_tooLong h
    obtain ⟨s, hs, rfl⟩ := List.mem_map.1 hn
    exact .inr ⟨s, hs, hlong⟩

/-! ## 3. Listed names -/

theorem valid_of_mem_namesIn {fs : FileSystem} {up : Location} {n : FileName}
    (h : n ∈ fs.namesIn up) : FileName.Valid n := by
  obtain ⟨x, hx⟩ := Option.ne_none_iff_exists'.1 (mem_namesIn.1 h)
  exact (valid_of_lookup? hx (List.cons_ne_nil n up)).2 n List.mem_cons_self

theorem nameIn_eq_some_iff {up : Location} {e : Location × Entry} {n : FileName} :
    nameIn up e = some n ↔ e.1 = n :: up := by
  obtain ⟨l, x⟩ := e
  cases l with
  | nil => simp [nameIn]
  | cons m l =>
    simp only [nameIn]
    split
    next h => simp [h]
    next h => simp [h]

theorem namesIn_nodup (fs : FileSystem) (up : Location) : (fs.namesIn up).Nodup := by
  have hpairs : fs.entries.Pairwise fun e f => e.1 ≠ f.1 := List.pairwise_map.1 fs.distinct
  refine List.Pairwise.filterMap _ (fun e f hne n hn m hm => ?_) hpairs
  rw [nameIn_eq_some_iff] at hn hm
  rintro rfl
  exact hne (hn.trans hm.symm)

/-! ## 4. The order of a listing -/

/-- The same entries, which listings may show in another order. -/
structure Reordered (fs fs' : FileSystem) : Prop where
  workingDirectory : fs'.workingDirectory = fs.workingDirectory
  entries : fs'.entries.Perm fs.entries

theorem find?_eq_some_iff {l : Location} {x : Entry} {es : List (Location × Entry)}
    (h : (es.map Prod.fst).Nodup) : find? l es = some x ↔ (l, x) ∈ es := by
  refine ⟨mem_of_find?, fun hmem => ?_⟩
  induction es with
  | nil => contradiction
  | cons e es ih =>
    rw [List.map_cons, List.nodup_cons] at h
    rw [find?]
    rcases List.mem_cons.1 hmem with rfl | hmem
    · rw [if_pos rfl]
    · -- The location is taken once, so the search does not stop before its entry.
      have hne : e.1 ≠ l := fun he => h.1 (he ▸ List.mem_map_of_mem hmem)
      rw [if_neg hne, ih h.2 hmem]

namespace Reordered

theorem refl (fs : FileSystem) : Reordered fs fs := ⟨rfl, .refl _⟩

variable {fs fs' : FileSystem} (h : Reordered fs fs')
include h

theorem symm : Reordered fs' fs := ⟨h.workingDirectory.symm, h.entries.symm⟩

theorem lookup?_eq (l : Location) : fs'.lookup? l = fs.lookup? l := by
  rw [lookup?, lookup?]
  split
  · rfl
  · apply Option.ext
    intro x
    rw [find?_eq_some_iff fs'.distinct, find?_eq_some_iff fs.distinct, h.entries.mem_iff]

theorem walk_eq (l : Location) (ns : List FileName) : fs'.walk l ns = fs.walk l ns := by
  induction ns generalizing l with
  | nil => rfl
  | cons n ns ih =>
    have henter : fs'.enter l n = fs.enter l n := by simp only [enter, h.lookup?_eq]
    simp only [walk, henter, ih]

theorem locate_eq (p : Path) : fs'.locate p = fs.locate p := by
  simp only [locate, h.workingDirectory, h.walk_eq]

end Reordered

end FileSystem
end GoldenCheck
