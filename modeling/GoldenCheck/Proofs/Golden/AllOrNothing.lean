import GoldenCheck.Proofs.Golden.Faults
import GoldenCheck.Proofs.Golden.UpToDate

/-!
# A rebuild is all or nothing

A case is rebuilt unless its entry point is not known, its inputs do not load or its expected file
is a directory.  Each of these shows before the expected file is opened, which empties it, and from
then on nothing can fail: the output always has an encoding.  What was written is read back as the
output, so that the case passes and a second rebuild changes nothing.
-/

namespace GoldenCheck

namespace FileSystem

/-! ## 1. Writing twice -/

theorem putIn_putIn (l : Location) (x y : Entry) (es : List (Location × Entry)) :
    putIn l y (putIn l x es) = putIn l y es := by
  induction es with
  | nil => simp [putIn]
  | cons e es ih =>
    by_cases he : e.1 = l
    · simp [putIn, he]
    · simp only [putIn, if_neg he, ih]

theorem put_put (fs : FileSystem) {l : Location} (x y : Entry) (h : Location.Valid l) :
    (fs.put l x h).put l y h = fs.put l y h := by
  simp only [put, putIn_putIn]

/-- A file that could be written can be written again, as if it had not been written before. -/
theorem writeFile_writeFile {fs fs' : FileSystem} {p : Path} {content : Bytes}
    (h : fs.writeFile p content = .ok fs') (next : Bytes) :
    fs'.writeFile p next = fs.writeFile p next := by
  obtain ⟨l, hl, hat, hdir, rfl⟩ := writeFile_eq_ok_iff.1 h
  have hsame := put_sameDirectories hl hdir content
  have hat' : (fs.put l (.file content) hl).locate p = .ok l :=
    ((hsame.locate_alike p).ok_iff l).2 hat
  have hdir' : (fs.put l (.file content) hl).lookup? l ≠ some .directory :=
    fun he => hdir ((hsame.directory l).1 he)
  rw [writeFile_eq_ok_iff.2 ⟨l, hl, hat', hdir', rfl⟩, put_put]
  exact (writeFile_eq_ok_iff.2 ⟨l, hl, hat, hdir, rfl⟩).symm

end FileSystem

namespace Golden

/-! ## 2. Inputs that do not load -/

/-- What keeps the inputs of a case from being loaded: the file cannot be opened, is no text, is no
value, or is a value other than a list of integers. -/
inductive InputsFault (fs : FileSystem) (case : Path) : Fault → Prop
  | refused {r : Refusal} : fs.readFile (case.child inputsFile) = .error r →
    InputsFault fs case (.refused r (case.child inputsFile).toText)
  | undecodable {content : Bytes} {e : Utf8.DecodeError} :
    fs.readFile (case.child inputsFile) = .ok content → Utf8.decode content = .error e →
    InputsFault fs case (.undecodable e)
  | malformed {t : List Char} {e : Json.ReadError} : fs.readText (case.child inputsFile) = .ok t →
    Json.read t = .error e → InputsFault fs case (.unreadable e)
  | notIntegers {v : Json.Value} : fs.readJson (case.child inputsFile) = .ok v →
    (∀ xs : List Int, v ≠ .array (xs.map .int)) →
    InputsFault fs case (.inputsNotIntegers (case.child inputsFile).toText)

theorem inputsOf_eq_error_iff {path : Text} {v : Json.Value} {f : Fault} :
    inputsOf path v = .error f ↔
      f = .inputsNotIntegers path ∧ ∀ xs : List Int, v ≠ .array (xs.map .int) := by
  unfold inputsOf
  split
  next vs =>
    split
    next xs hxs => simp [integers?_eq_some_iff.1 hxs]
    next hnone =>
      have hother : ∀ xs : List Int, vs ≠ xs.map .int := by
        rintro xs rfl
        rw [integers?_eq_some_iff.2 rfl] at hnone
        contradiction
      simp [hother, eq_comm]
  next hother =>
    have hne : ∀ xs : List Int, v ≠ .array (xs.map .int) := fun xs => hother _
    simp [hne, eq_comm]

theorem loadInputs_eq_error_iff {fs : FileSystem} {case : Path} {f : Fault} :
    loadInputs fs case = .error f ↔ InputsFault fs case f := by
  rw [loadInputs, bind_eq_error_iff]
  constructor
  · rintro (h | ⟨v, hv, h⟩)
    · -- Reading goes through the bytes, the text and the value of the file.
      unfold FileSystem.readJson at h
      split at h
      next g hg =>
        cases h
        unfold FileSystem.readText at hg
        split at hg
        next r hr => cases hg; exact .refused hr
        next content hcontent =>
          split at hg
          next e he => cases hg; exact .undecodable hcontent he
          next => contradiction
      next t ht =>
        split at h
        next e he => cases h; exact .malformed ht he
        next => contradiction
    · obtain ⟨rfl, hne⟩ := inputsOf_eq_error_iff.1 h
      exact .notIntegers hv hne
  · intro h
    cases h with
    | refused hr => exact .inl (by simp only [FileSystem.readJson, FileSystem.readText, hr])
    | undecodable hcontent he =>
      exact .inl (by simp only [FileSystem.readJson, FileSystem.readText, hcontent, he])
    | malformed ht he => exact .inl (by simp only [FileSystem.readJson, ht, he])
    | notIntegers hv hne => exact .inr ⟨_, hv, inputsOf_eq_error_iff.2 ⟨rfl, hne⟩⟩

/-! ## 3. Cases that are not rebuilt -/

/-- Where inputs were loaded the path of the expected file leads to a place beside them. -/
theorem expected_beside_inputs {fs : FileSystem} {case : Path} {xs : List Int}
    (h : loadInputs fs case = .ok xs) :
    ∃ up, fs.locate (case.child expectedFile) = .ok (expectedName :: up) ∧
      Location.Valid (expectedName :: up) := by
  obtain ⟨up, content, hup, hinputs, hfile⟩ := loadInputs_located h
  obtain ⟨up', hup', hdir, -⟩ := inputsFile_plain.locate_child hinputs
  obtain rfl : up = up' := Except.ok.inj (hup.symm.trans hup')
  have hvalid := FileSystem.valid_of_lookup? hfile (List.cons_ne_nil _ _)
  refine ⟨up, ?_, List.cons_ne_nil _ _, ?_⟩
  · rcases expectedFile_plain.locate_child_of hup hdir with hat | hlong
    · exact hat
    · -- The name is shorter than that of the inputs, whose path is not too long.
      have hinputs' := expectedFile_plain.locate_tooLong inputsFile_plain (by decide) hlong
      rw [hinputs] at hinputs'
      contradiction
  · rw [List.forall_mem_cons]
    exact ⟨expectedFile_plain.valid, fun n hn => hvalid.2 n (List.mem_cons_of_mem _ hn)⟩

/-- What keeps a case from having an output. -/
inductive OutputFault (fs : FileSystem) (case : Path) (name : Text) : Fault → Prop
  | entry : (∀ entry, (name, entry) ∉ EntryPoint.known) →
    OutputFault fs case name (.unknownEntry name (EntryPoint.known.map Prod.fst))
  | inputs {entry : EntryPoint} {f : Fault} : (name, entry) ∈ EntryPoint.known →
    InputsFault fs case f → OutputFault fs case name f

/-- What keeps a case from being rebuilt: it has no output, or its expected file is a directory. -/
inductive RebuildFault (fs : FileSystem) (case : Path) (name : Text) : Fault → Prop
  | output {f : Fault} : OutputFault fs case name f → RebuildFault fs case name f
  | directory {t : Text} {l : Location} : output fs case name = .ok t →
    fs.locate (case.child expectedFile) = .ok l → fs.lookup? l = some .directory →
    RebuildFault fs case name (.refused .isDirectory (case.child expectedFile).toText)

section
variable {fs : FileSystem} {case : Path} {name t : Text} {f : Fault}

theorem EntryPoint.ofName_eq_error_iff :
    EntryPoint.ofName name = .error f ↔
      (∀ entry, (name, entry) ∉ EntryPoint.known) ∧
        f = .unknownEntry name (EntryPoint.known.map Prod.fst) := by
  constructor
  · intro h
    refine ⟨fun entry hknown => ?_, EntryPoint.ofName_eq_error h⟩
    rw [EntryPoint.ofName_eq_ok_iff.2 hknown] at h
    contradiction
  · rintro ⟨hnone, rfl⟩
    cases hname : EntryPoint.ofName name with
    | ok entry => exact absurd (EntryPoint.ofName_eq_ok_iff.1 hname) (hnone entry)
    | error g => rw [EntryPoint.ofName_eq_error hname]

/-- Rendering itself never fails. -/
theorem output_eq_error_iff : output fs case name = .error f ↔ OutputFault fs case name f := by
  rw [output, bind_eq_error_iff]
  constructor
  · rintro (hname | ⟨entry, hname, h⟩)
    · obtain ⟨hnone, rfl⟩ := EntryPoint.ofName_eq_error_iff.1 hname
      exact .entry hnone
    · rcases bind_eq_error_iff.1 h with hxs | ⟨xs, hxs, h⟩
      · exact .inputs (EntryPoint.ofName_eq_ok_iff.1 hname) (loadInputs_eq_error_iff.1 hxs)
      · rw [render_ints (loadInputs_short hxs)] at h
        contradiction
  · intro h
    cases h with
    | entry hnone => exact .inl (EntryPoint.ofName_eq_error_iff.2 ⟨hnone, rfl⟩)
    | inputs hknown hinputs =>
      refine .inr ⟨_, EntryPoint.ofName_eq_ok_iff.2 hknown, ?_⟩
      rw [loadInputs_eq_error_iff.2 hinputs, error_bind]

/-- The expected file of a case with an output can be written, with whatever content, unless a
directory is in its place. -/
theorem writeFile_of_output (h : output fs case name = .ok t) :
    ∃ l content hv, Recording fs case name t l content ∧
      ∀ next, fs.writeFile (case.child expectedFile) next =
        if fs.lookup? l = some .directory then .error .isDirectory
        else .ok (fs.put l (.file next) hv) := by
  obtain ⟨-, xs, -, hxs, -⟩ := output_eq_ok_iff.1 h
  obtain ⟨up, hat, hv⟩ := expected_beside_inputs hxs
  obtain ⟨content, -, hcontent, -⟩ := (output_plain h).read_back
  refine ⟨_, content, hv, ⟨h, hcontent, hat⟩, fun next => ?_⟩
  simp only [FileSystem.writeFile, hat, dif_pos hv]

/-- A case is rebuilt unless something is known to keep it from that, and then fails for this
reason. -/
theorem rebuildCase_eq_error_iff :
    rebuildCase fs case name = .error f ↔ RebuildFault fs case name f := by
  rw [rebuildCase, bind_eq_error_iff]
  constructor
  · rintro (h | ⟨t, ht, h⟩)
    · exact .output (output_eq_error_iff.1 h)
    · obtain ⟨l, content, hv, hrec, hwrite⟩ := writeFile_of_output ht
      by_cases hdir : fs.lookup? l = some .directory
      · simp only [hrec.encoded, hwrite, if_pos hdir] at h
        cases h
        exact .directory ht hrec.located hdir
      · simp only [hrec.encoded, hwrite, if_neg hdir] at h
        contradiction
  · intro h
    cases h with
    | output h => exact .inl (output_eq_error_iff.2 h)
    | @directory t l ht hat hdir =>
      obtain ⟨m, content, hv, hrec, hwrite⟩ := writeFile_of_output ht
      obtain rfl : l = m := Except.ok.inj (hat.symm.trans hrec.located)
      exact .inr ⟨t, ht, by simp only [hrec.encoded, hwrite, if_pos hdir]⟩

end

/-! ## 4. The file while it is rebuilt -/

/-- Rebuilding as the file undergoes it: opening it for writing leaves it empty, and only then is
the output encoded and written.  What was done before a fault stays.  The last refusal never comes,
since a file that was opened can be written (`FileSystem.writeFile_writeFile`). -/
def rebuildInPlace (fs : FileSystem) (case : Path) (name : Text) : FileSystem × Except Fault Text :=
  match output fs case name with
  | .error f => (fs, .error f)
  | .ok text =>
    match fs.writeFile (case.child expectedFile) [] with
    | .error r => (fs, .error (.refused r (case.child expectedFile).toText))
    | .ok emptied =>
      match Utf8.encode text with
      | .error e => (emptied, .error (.unencodable e))
      | .ok content =>
        match emptied.writeFile (case.child expectedFile) content with
        | .error r => (emptied, .error (.refused r (case.child expectedFile).toText))
        | .ok written => (written, .ok text)

section
variable {fs fs' : FileSystem} {case : Path} {name t : Text} {f : Fault}

/-- A rebuild that fails does so before the file is emptied. -/
theorem rebuildInPlace_of_fault (h : RebuildFault fs case name f) :
    rebuildInPlace fs case name = (fs, .error f) := by
  cases h with
  | output h => simp only [rebuildInPlace, output_eq_error_iff.2 h]
  | @directory t l ht hat hdir =>
    obtain ⟨m, content, hv, hrec, hwrite⟩ := writeFile_of_output ht
    obtain rfl : l = m := Except.ok.inj (hat.symm.trans hrec.located)
    simp only [rebuildInPlace, ht, hwrite, if_pos hdir]

theorem rebuildInPlace_of_ok (h : rebuildCase fs case name = .ok (t, fs')) :
    rebuildInPlace fs case name = (fs', .ok t) := by
  obtain ⟨l, content, hl, hrec, hdir, rfl⟩ := rebuildCase_eq_ok_iff.1 h
  have hopen : fs.writeFile (case.child expectedFile) [] = .ok (fs.put l (.file []) hl) :=
    FileSystem.writeFile_eq_ok_iff.2 ⟨l, hl, hrec.located, hdir, rfl⟩
  have hwrite :
      fs.writeFile (case.child expectedFile) content = .ok (fs.put l (.file content) hl) :=
    FileSystem.writeFile_eq_ok_iff.2 ⟨l, hl, hrec.located, hdir, rfl⟩
  simp only [rebuildInPlace, hrec.rendered, hopen, hrec.encoded,
    FileSystem.writeFile_writeFile hopen, hwrite]

/-! ## 5. After a rebuild -/

/-- The case passes, with the output as what is there and as what was expected. -/
theorem runCase_of_rebuildCase (h : rebuildCase fs case name = .ok (t, fs')) :
    runCase fs' case name = .ok ⟨case.name, true, t, some t⟩ := by
  have hkept := rebuildCase_kept h
  obtain ⟨l, content, hl, hrec, -, rfl⟩ := rebuildCase_eq_ok_iff.1 h
  have hrec' := hkept.recording_iff.2 hrec
  have hexpected := loadExpected_of_file (output_plain hrec'.rendered) hrec'.encoded hrec'.located
    (by rw [FileSystem.lookup?_put, if_pos rfl])
  exact runCase_eq_ok_iff.2 ⟨t, some t, hrec'.rendered, hexpected, by simp⟩

theorem rebuildCase_again (h : rebuildCase fs case name = .ok (t, fs')) :
    rebuildCase fs' case name = .ok (t, fs') := by
  obtain ⟨s, hs⟩ := (rebuildCase_upToDate h).rebuildCase_eq
  obtain ⟨_, _, _, hrec, -⟩ := rebuildCase_eq_ok_iff.1 h
  obtain ⟨_, _, _, hrec', -⟩ := rebuildCase_eq_ok_iff.1 hs
  have hrendered := ((rebuildCase_kept h).output_iff case name t).2 hrec.rendered
  obtain rfl : s = t := Except.ok.inj (hrec'.rendered.symm.trans hrendered)
  exact hs

end

/-- Rebuilding a case fails, for a reason that is there, and leaves everything as it was, also while
the file is being written; or nothing stands in the way, and then only the expected file changes,
which holds the output that is returned, the case passes with it, and a second rebuild changes
nothing. -/
theorem rebuildCase_all_or_nothing (fs : FileSystem) (case : Path) (name : Text) :
    (∃ f, RebuildFault fs case name f ∧ rebuildCase fs case name = .error f ∧
      rebuildInPlace fs case name = (fs, .error f)) ∨
    (¬ ∃ f, RebuildFault fs case name f) ∧
      ∃ t fs', rebuildCase fs case name = .ok (t, fs') ∧
        rebuildInPlace fs case name = (fs', .ok t) ∧
        (∃ l content, fs.locate (case.child expectedFile) = .ok l ∧
          (∀ m, m ≠ l → fs'.lookup? m = fs.lookup? m) ∧
          fs'.workingDirectory = fs.workingDirectory ∧
          fs'.readFile (case.child expectedFile) = .ok content ∧ Utf8.encode t = .ok content) ∧
        runCase fs' case name = .ok ⟨case.name, true, t, some t⟩ ∧
        rebuildCase fs' case name = .ok (t, fs') := by
  cases h : rebuildCase fs case name with
  | error f =>
    have hfault := rebuildCase_eq_error_iff.1 h
    exact .inl ⟨f, hfault, rfl, rebuildInPlace_of_fault hfault⟩
  | ok x =>
    obtain ⟨t, fs'⟩ := x
    refine .inr ⟨?_, t, fs', rfl, rebuildInPlace_of_ok h, ?_, runCase_of_rebuildCase h,
      rebuildCase_again h⟩
    · rintro ⟨f, hf⟩
      rw [rebuildCase_eq_error_iff.2 hf] at h
      contradiction
    · have hkept := rebuildCase_kept h
      obtain ⟨l, content, hl, hrec, -, rfl⟩ := rebuildCase_eq_ok_iff.1 h
      have hat := (hkept.recording_iff.2 hrec).located
      refine ⟨l, content, hrec.located, fun m hm => ?_, rfl, ?_, hrec.encoded⟩
      · rw [FileSystem.lookup?_put, if_neg hm]
      · exact FileSystem.readFile_eq_ok_iff.2 ⟨l, hat, by rw [FileSystem.lookup?_put, if_pos rfl]⟩

end Golden
end GoldenCheck
