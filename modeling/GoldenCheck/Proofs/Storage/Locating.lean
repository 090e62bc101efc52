import GoldenCheck.Proofs.Text.Encoding
import GoldenCheck.Storage.FileSystem

/-!
# Where paths lead

The path of an entry leads through the directory that holds it.  What a walk meets on its way are
directories only, so two file systems with the same directories give every path the same location,
or both find nothing there.
-/

namespace GoldenCheck

/-! ## 1. The text of an entry's path -/

theorem Text.join_concat (sep t : Text) {ts : List Text} (h : ts ≠ []) :
    Text.join sep (ts ++ [t]) = Text.join sep ts ++ sep ++ t := by
  induction ts with
  | nil => contradiction
  | cons s ts ih =>
    cases ts with
    | nil => rfl
    | cons r ts =>
      change s ++ sep ++ Text.join sep (r :: ts ++ [t]) =
        s ++ sep ++ Text.join sep (r :: ts) ++ sep ++ t
      rw [ih (List.cons_ne_nil r ts)]
      simp only [List.append_assoc]

namespace Path

/-- What stands before the name of an entry of `p`. -/
def lead (p : Path) : Text := if p.parts = [] then anchorText p.anchor else p.toText ++ [slash]

theorem toText_child (p : Path) (t : Text) : (p.child t).toText = p.lead ++ t := by
  have hne : (p.child t).parts ≠ [] := by simp [child]
  rw [toText, if_neg (fun h => hne h.2)]
  change anchorText p.anchor ++ Text.join [slash] (p.parts ++ [t]) = _
  by_cases hp : p.parts = []
  · rw [lead, if_pos hp, hp]
    rfl
  · rw [lead, if_neg hp, Text.join_concat _ _ hp, toText, if_neg (fun h => hp h.2)]
    simp only [List.append_assoc]

/-- The path of a directory is the start of the paths of its entries, unless it has no parts. -/
theorem toText_prefix_lead (p : Path) : p.toText = [.char '.'] ∨ ∃ s, p.lead = p.toText ++ s := by
  by_cases hp : p.parts = []
  · rw [lead, if_pos hp, toText]
    by_cases ha : p.anchor = .relative
    · exact .inl (if_pos ⟨ha, hp⟩)
    · rw [if_neg (fun h => ha h.1), hp]
      exact .inr ⟨[], by simp [Text.join]⟩
  · rw [lead, if_neg hp]
    exact .inr ⟨[slash], rfl⟩

theorem name_child (p : Path) (t : Text) : (p.child t).name = t := by
  simp [name, child]

/-- Where the path of an entry can be encoded, so can the name of its directory. -/
theorem name_encodable {p : Path} {t : Text} (h : (p.child t).toText.Encodable) :
    p.name.Encodable := by
  rw [toText_child, Text.encodable_append] at h
  rcases List.eq_nil_or_concat p.parts with hp | ⟨before, n, hp⟩
  · rw [name, hp]
    exact nofun
  · -- The directory is itself an entry, of the path without the last part.
    have hchild : p = (⟨p.anchor, before⟩ : Path).child n := by
      rw [child, ← List.concat_eq_append, ← hp]
    rw [lead, if_neg (by simp [hp]), hchild, toText_child] at h
    simp only [Text.encodable_append] at h
    rw [hchild, name_child]
    exact h.1.1.2

end Path

namespace Utf8

theorem systemError?_append (s t : Text) :
    systemError? (s ++ t) = none ↔ systemError? s = none ∧ systemError? t = none := by
  simp only [systemError?, refusedRun_eq_none_iff, List.mem_append]
  exact ⟨fun h => ⟨fun p hp => h p (.inl hp), fun p hp => h p (.inr hp)⟩,
    fun h p hp => hp.elim (h.1 p) (h.2 p)⟩

theorem encodeSystem_append (s t : Text) : encodeSystem (s ++ t) = encodeSystem s ++ encodeSystem t :=
  List.flatMap_append

end Utf8

namespace FileSystem

/-! ## 2. Names on a path -/

/-- A text that is the name of an entry wherever it is looked for. -/
structure PlainName (t : Text) : Prop where
  encodable : Utf8.systemError? t = none
  noNull : .char '\x00' ∉ t
  valid : FileName.Valid (Utf8.encodeSystem t)

theorem fileNames_eq_ok_iff {p : Path} {ns : List FileName} :
    fileNames p = .ok ns ↔
      Utf8.systemError? p.toText = none ∧ .char '\x00' ∉ p.toText ∧
        (Utf8.encodeSystem p.toText).length ≤ maxPathLength ∧
        p.parts.map Utf8.encodeSystem = ns := by
  unfold fileNames
  split
  next e he => simp [he]
  next he =>
    by_cases hnull : .char '\x00' ∈ p.toText
    · simp [hnull]
    · by_cases hlen : maxPathLength < (Utf8.encodeSystem p.toText).length
      · simp [hnull, hlen, Nat.not_le.2 hlen]
      · simp [he, hnull, hlen, Nat.not_lt.1 hlen]

theorem fileNames_child {p : Path} {t : Text} {ns : List FileName}
    (h : fileNames (p.child t) = .ok ns) :
    ∃ us, fileNames p = .ok us ∧ ns = us ++ [Utf8.encodeSystem t] := by
  obtain ⟨herr, hnull, hlen, rfl⟩ := fileNames_eq_ok_iff.1 h
  refine ⟨p.parts.map Utf8.encodeSystem, fileNames_eq_ok_iff.2 ?_, by simp [Path.child]⟩
  rw [Path.toText_child] at herr hnull hlen
  -- What the path of the entry passes, the path of its directory does, being the start of it.
  rcases p.toText_prefix_lead with hp | ⟨s, hs⟩
  · rw [hp]
    exact ⟨by decide, by decide, by decide, rfl⟩
  · rw [hs, List.append_assoc] at herr hnull hlen
    rw [Utf8.encodeSystem_append, List.length_append] at hlen
    refine ⟨((Utf8.systemError?_append _ _).1 herr).1, fun hp => hnull ?_, by omega, rfl⟩
    exact List.mem_append_left _ hp

/-! ## 3. Walking -/

theorem walk_concat (fs : FileSystem) (l : Location) (ns : List FileName) (n : FileName) :
    fs.walk l (ns ++ [n]) =
      match fs.walk l ns with
      | .error r => .error r
      | .ok up => fs.enter up n := by
  -- Induction on the names before the last; a walk that stops there stops on both sides.
  induction ns generalizing l with
  | nil =>
    change (match fs.enter l n with | .error r => .error r | .ok l => .ok l) = fs.enter l n
    cases fs.enter l n <;> rfl
  | cons m ns ih =>
    simp only [List.cons_append, walk]
    cases fs.enter l m with
    | error r => rfl
    | ok l' => exact ih l'

/-- If the path of an entry can be read at all, its last step is taken from its directory. -/
theorem locate_child_eq {p : Path} {t : Text} {ns : List FileName}
    (h : fileNames (p.child t) = .ok ns) (fs : FileSystem) :
    fs.locate (p.child t) =
      match fs.locate p with
      | .error r => .error r
      | .ok up => fs.enter up (Utf8.encodeSystem t) := by
  obtain ⟨us, hus, rfl⟩ := fileNames_child h
  simp only [locate, h, hus]
  exact walk_concat fs _ us _

/-- The way to an entry leads through its directory. -/
theorem locate_child {fs : FileSystem} {p : Path} {t : Text} {l : Location}
    (h : fs.locate (p.child t) = .ok l) :
    ∃ up, fs.locate p = .ok up ∧ fs.enter up (Utf8.encodeSystem t) = .ok l := by
  cases hn : fileNames (p.child t) with
  | error r => simp only [locate, hn] at h; contradiction
  | ok ns =>
    rw [locate_child_eq hn] at h
    cases hp : fs.locate p with
    | error r => rw [hp] at h; contradiction
    | ok up => rw [hp] at h; exact ⟨up, rfl, h⟩

theorem enter_eq_ok {fs : FileSystem} {up l : Location} {n : FileName} (h : fs.enter up n = .ok l)
    (hn : n ≠ FileName.parent) : fs.lookup? up = some .directory ∧ l = n :: up := by
  unfold enter at h
  split at h
  · contradiction
  · contradiction
  next hup =>
    rw [if_neg hn] at h
    split at h
    · contradiction
    · exact ⟨hup, (Except.ok.inj h).symm⟩

/-- An entry with a plain name lies in the directory that its path leads through. -/
theorem PlainName.locate_child {t : Text} (ht : PlainName t) {fs : FileSystem} {p : Path}
    {l : Location} (h : fs.locate (p.child t) = .ok l) :
    ∃ up, fs.locate p = .ok up ∧ fs.lookup? up = some .directory ∧ l = Utf8.encodeSystem t :: up := by
  obtain ⟨up, hup, henter⟩ := FileSystem.locate_child h
  obtain ⟨hdir, hl⟩ := enter_eq_ok henter ht.valid.2.2.1
  exact ⟨up, hup, hdir, hl⟩

/-! ## 4. Paths that are too long -/

theorem enter_error {fs : FileSystem} {l : Location} {n : FileName} {r : Refusal}
    (h : fs.enter l n = .error r) : r.meansAbsent = true ∨ r = .nameTooLong := by
  unfold enter at h
  split at h
  · cases h; exact .inl rfl
  · cases h; exact .inl rfl
  · split at h
    · contradiction
    · split at h
      · cases h; exact .inr rfl
      · contradiction

theorem walk_error {fs : FileSystem} {l : Location} {ns : List FileName} {r : Refusal}
    (h : fs.walk l ns = .error r) : r.meansAbsent = true ∨ r = .nameTooLong := by
  induction ns generalizing l with
  | nil => contradiction
  | cons n ns ih =>
    simp only [walk] at h
    split at h
    next hn => cases h; exact enter_error hn
    next => exact ih h

theorem locate_error {fs : FileSystem} {p : Path} {r : Refusal} (h : fs.locate p = .error r) :
    r.meansAbsent = true ∨ r = .nameTooLong := by
  unfold locate at h
  split at h
  next s hs =>
    cases h
    unfold fileNames at hs
    repeat' split at hs
    · cases hs; exact .inl rfl
    · cases hs; exact .inl rfl
    · cases hs; exact .inr rfl
    · contradiction
  next => exact walk_error h

theorem holds_of_locate {fs : FileSystem} {p : Path} {l : Location} (h : fs.locate p = .ok l)
    (test : Entry → Bool) : fs.holds test p = .ok ((fs.lookup? l).any test) := by
  simp only [holds, stat, h]
  cases fs.lookup? l <;> rfl

theorem holds_of_locate_error {fs : FileSystem} {p : Path} {r : Refusal}
    (h : fs.locate p = .error r) (test : Entry → Bool) :
    fs.holds test p = if r.meansAbsent then .ok false else .error r := by
  simp only [holds, stat, h]

/-- A question about an entry is refused only for the length of its path. -/
theorem holds_eq_error_iff {fs : FileSystem} {test : Entry → Bool} {p : Path} {r : Refusal} :
    fs.holds test p = .error r ↔ fs.locate p = .error .nameTooLong ∧ r = .nameTooLong := by
  constructor
  · intro h
    cases hl : fs.locate p with
    | ok l =>
      rw [holds_of_locate hl] at h
      contradiction
    | error s =>
      rw [holds_of_locate_error hl] at h
      rcases locate_error hl with habsent | rfl
      · rw [if_pos habsent] at h
        contradiction
      · cases h
        exact ⟨rfl, rfl⟩
  · rintro ⟨hl, rfl⟩
    rw [holds_of_locate_error hl]
    rfl

theorem isDirectory?_eq_true_iff {fs : FileSystem} {p : Path} :
    fs.isDirectory? p = .ok true ↔ ∃ l, fs.locate p = .ok l ∧ fs.lookup? l = some .directory := by
  unfold isDirectory?
  cases hl : fs.locate p with
  | ok l =>
    rw [holds_of_locate hl]
    cases he : fs.lookup? l <;> simp [he]
  | error r =>
    rw [holds_of_locate_error hl]
    split <;> simp

theorem fileNames_tooLong_iff {p : Path} :
    fileNames p = .error .nameTooLong ↔
      Utf8.systemError? p.toText = none ∧ .char '\x00' ∉ p.toText ∧
        maxPathLength < (Utf8.encodeSystem p.toText).length := by
  unfold fileNames
  split
  next e he => simp [he]
  next he =>
    by_cases hnull : .char '\x00' ∈ p.toText
    · simp [hnull]
    · by_cases hlen : maxPathLength < (Utf8.encodeSystem p.toText).length
      · simp [he, hnull, hlen]
      · simp [hnull, hlen]

theorem PlainName.enter_ne_tooLong {t : Text} (ht : PlainName t) (fs : FileSystem) (l : Location) :
    fs.enter l (Utf8.encodeSystem t) ≠ .error .nameTooLong := by
  have hlen : ¬ FileName.maxLength < (Utf8.encodeSystem t).length := Nat.not_lt.2 ht.valid.2.2.2.2.2
  unfold enter
  rw [if_neg ht.valid.2.2.1, if_neg hlen]
  split <;> simp

/-- If the path of an entry with a plain name is too long, so is that of an entry with a longer name
in the same directory. -/
theorem PlainName.locate_tooLong {s t : Text} (hs : PlainName s) (ht : PlainName t)
    (hle : (Utf8.encodeSystem s).length ≤ (Utf8.encodeSystem t).length) {fs : FileSystem} {p : Path}
    (h : fs.locate (p.child s) = .error .nameTooLong) :
    fs.locate (p.child t) = .error .nameTooLong := by
  -- Whatever is wrong with the path of `s`, it is not the name `s` itself.
  have tooLong : Utf8.systemError? p.lead = none → .char '\x00' ∉ p.lead →
      maxPathLength < (Utf8.encodeSystem (p.lead ++ t)).length →
      fs.locate (p.child t) = .error .nameTooLong := by
    intro herr hnull hlen
    have hn : fileNames (p.child t) = .error .nameTooLong := by
      rw [fileNames_tooLong_iff, Path.toText_child]
      exact ⟨(Utf8.systemError?_append _ _).2 ⟨herr, ht.encodable⟩,
        fun hm => (List.mem_append.1 hm).elim hnull ht.noNull, hlen⟩
    simp only [locate, hn]
  cases hn : fileNames (p.child s) with
  | error r =>
    simp only [locate, hn] at h
    cases h
    obtain ⟨herr, hnull, hlen⟩ := fileNames_tooLong_iff.1 hn
    rw [Path.toText_child] at herr hnull hlen
    refine tooLong ((Utf8.systemError?_append _ _).1 herr).1
      (fun hm => hnull (List.mem_append_left _ hm)) (Nat.lt_of_lt_of_le hlen ?_)
    simp only [Utf8.encodeSystem_append, List.length_append]
    omega
  | ok ns =>
    obtain ⟨us, hus, rfl⟩ := fileNames_child hn
    obtain ⟨herr, hnull, -, -⟩ := fileNames_eq_ok_iff.1 hn
    rw [Path.toText_child] at herr hnull
    have herr' := ((Utf8.systemError?_append _ _).1 herr).1
    have hnull' : .char '\x00' ∉ p.lead := fun hm => hnull (List.mem_append_left _ hm)
    by_cases hlen : maxPathLength < (Utf8.encodeSystem (p.lead ++ t)).length
    · exact tooLong herr' hnull' hlen
    · have ht' : fileNames (p.child t) = .ok (us ++ [Utf8.encodeSystem t]) := by
        obtain ⟨-, -, -, rfl⟩ := fileNames_eq_ok_iff.1 hus
        rw [fileNames_eq_ok_iff, Path.toText_child]
        exact ⟨(Utf8.systemError?_append _ _).2 ⟨herr', ht.encodable⟩,
          fun hm => (List.mem_append.1 hm).elim hnull' ht.noNull, Nat.not_lt.1 hlen,
          by simp [Path.child]⟩
      rw [locate_child_eq hn] at h
      rw [locate_child_eq ht']
      cases hp : fs.locate p with
      | error r => rw [hp] at h; exact h
      | ok up => rw [hp] at h; exact absurd h (hs.enter_ne_tooLong fs up)

/-! ## 5. File systems with the same directories -/

structure SameDirectories (fs fs' : FileSystem) : Prop where
  workingDirectory : fs'.workingDirectory = fs.workingDirectory
  directory : ∀ l, fs'.lookup? l = some .directory ↔ fs.lookup? l = some .directory

/-- Equal answers, or two refusals that both tell that there is nothing. -/
def Alike {α : Type} (x y : Except Refusal α) : Prop :=
  x = y ∨ ∃ r s, x = .error r ∧ y = .error s ∧ r.meansAbsent = true ∧ s.meansAbsent = true

theorem Alike.ok_iff {α : Type} {x y : Except Refusal α} (h : Alike x y) (a : α) :
    x = .ok a ↔ y = .ok a := by
  rcases h with rfl | ⟨r, s, rfl, rfl, _⟩
  · exact Iff.rfl
  · exact ⟨nofun, nofun⟩

namespace SameDirectories

variable {fs fs' : FileSystem}

theorem refl (fs : FileSystem) : SameDirectories fs fs := ⟨rfl, fun _ => Iff.rfl⟩

theorem trans {fs'' : FileSystem} (h : SameDirectories fs fs') (h' : SameDirectories fs' fs'') :
    SameDirectories fs fs'' :=
  ⟨h'.workingDirectory.trans h.workingDirectory, fun l => (h'.directory l).trans (h.directory l)⟩

theorem enter_alike (h : SameDirectories fs fs') (l : Location) (n : FileName) :
    Alike (fs'.enter l n) (fs.enter l n) := by
  by_cases hd : fs.lookup? l = some .directory
  · have hd' := (h.directory l).2 hd
    simp only [enter, hd, hd']
    exact .inl rfl
  · have hd' : fs'.lookup? l ≠ some .directory := fun he => hd ((h.directory l).1 he)
    -- Where there is no directory nothing is entered, whatever is there instead.
    have absent : ∀ g : FileSystem, g.lookup? l ≠ some .directory →
        ∃ r, g.enter l n = .error r ∧ r.meansAbsent = true := by
      intro g hg
      unfold enter
      match he : g.lookup? l with
      | none => exact ⟨.notFound, rfl, rfl⟩
      | some (.file _) => exact ⟨.notDirectory, rfl, rfl⟩
      | some .directory => exact absurd he hg
    obtain ⟨r, hr, ha⟩ := absent fs' hd'
    obtain ⟨s, hs, hb⟩ := absent fs hd
    exact .inr ⟨r, s, hr, hs, ha, hb⟩

theorem walk_alike (h : SameDirectories fs fs') (l : Location) (ns : List FileName) :
    Alike (fs'.walk l ns) (fs.walk l ns) := by
  induction ns generalizing l with
  | nil => exact .inl rfl
  | cons n ns ih =>
    simp only [walk]
    rcases h.enter_alike l n with he | ⟨r, s, hr, hs, ha, hb⟩
    · rw [he]
      cases fs.enter l n with
      | error r => exact .inl rfl
      | ok l' => exact ih l'
    · rw [hr, hs]
      exact .inr ⟨r, s, rfl, rfl, ha, hb⟩

theorem locate_alike (h : SameDirectories fs fs') (p : Path) :
    Alike (fs'.locate p) (fs.locate p) := by
  simp only [locate, h.workingDirectory]
  cases fileNames p with
  | error r => exact .inl rfl
  | ok ns => exact h.walk_alike _ ns

/-- A question has the same answer if it does where the path leads. -/
theorem holds_eq (h : SameDirectories fs fs') {test : Entry → Bool} {p : Path}
    (htest : ∀ l, fs.locate p = .ok l → (fs'.lookup? l).any test = (fs.lookup? l).any test) :
    fs'.holds test p = fs.holds test p := by
  rcases h.locate_alike p with he | ⟨r, s, hr, hs, ha, hb⟩
  · cases hl : fs.locate p with
    | error r => rw [holds_of_locate_error hl, holds_of_locate_error (he.trans hl)]
    | ok l => rw [holds_of_locate hl, holds_of_locate (he.trans hl), htest l hl]
  · -- Different refusals are one answer where both mean that nothing is there.
    rw [holds_of_locate_error hr, holds_of_locate_error hs, if_pos ha, if_pos hb]

theorem isDirectory?_eq (h : SameDirectories fs fs') (p : Path) :
    fs'.isDirectory? p = fs.isDirectory? p := by
  -- The question does not tell a file from nothing, so that equal directories are enough.
  have hany : ∀ e : Option Entry, e.any (· = .directory) = decide (e = some .directory) := by
    intro e
    cases e <;> simp
  refine h.holds_eq fun l _ => ?_
  rw [hany, hany, decide_eq_decide.2 (h.directory l)]

end SameDirectories

end FileSystem
end GoldenCheck
