import GoldenCheck.Golden.Run
import GoldenCheck.Proofs.Golden.Rendering
import GoldenCheck.Proofs.Storage.Writing

/-!
# What rebuilding keeps

Rebuilding a case writes its recording: the encoded output, in the expected file beside the inputs.
Directories, files of other names and the cases of every root stay as they are, and with them every
recording, so that rebuilds do not disturb each other.
-/

namespace GoldenCheck

theorem FileSystem.SameDirectories.isFolder_eq {fs fs' : FileSystem}
    (h : FileSystem.SameDirectories fs fs') (p : Path) : fs'.isFolder p = fs.isFolder p := by
  simp only [FileSystem.isFolder, h.isDirectory?_eq p]

namespace Golden

open FileSystem (PlainName SameDirectories)

/-! ## 1. The files of a case -/

def inputsName : FileName := Utf8.encodeSystem inputsFile

def expectedName : FileName := Utf8.encodeSystem expectedFile

theorem inputsFile_plain : PlainName inputsFile := ⟨by decide, by decide, by decide⟩

theorem expectedFile_plain : PlainName expectedFile := ⟨by decide, by decide, by decide⟩

/-- The output `t` of a case under the name `name`, the encoded output and where it is kept. -/
structure Recording (fs : FileSystem) (case : Path) (name t : Text) (l : Location)
    (content : Bytes) : Prop where
  rendered : output fs case name = .ok t
  encoded : Utf8.encode t = .ok content
  located : fs.locate (case.child expectedFile) = .ok l

theorem rebuildCase_eq_ok_iff {fs fs' : FileSystem} {case : Path} {name t : Text} :
    rebuildCase fs case name = .ok (t, fs') ↔
      ∃ l content h, Recording fs case name t l content ∧ fs.lookup? l ≠ some .directory ∧
        fs' = fs.put l (.file content) h := by
  rw [rebuildCase, bind_eq_ok_iff]
  constructor
  · rintro ⟨s, hs, h⟩
    split at h
    · contradiction
    next content hcontent =>
      split at h
      · contradiction
      next hwrite =>
        cases h
        obtain ⟨l, hl, hlocate, hdir, hput⟩ := FileSystem.writeFile_eq_ok_iff.1 hwrite
        exact ⟨l, content, hl, ⟨hs, hcontent, hlocate⟩, hdir, hput⟩
  · rintro ⟨l, content, hl, hrec, hdir, hput⟩
    have hwrite := FileSystem.writeFile_eq_ok_iff.2 ⟨l, hl, hrec.located, hdir, hput⟩
    exact ⟨t, hrec.rendered, by simp only [hrec.encoded, hwrite]⟩

/-- File systems that agree on the directories, on the output of a case and on the way to its
expected file rebuild the case by the same write, or fail for the same reason. -/
theorem rebuildCase_of_agree {fs fs' : FileSystem} (h : SameDirectories fs fs') {case : Path}
    {name : Text} (houtput : output fs' case name = output fs case name)
    (hlocate : fs'.locate (case.child expectedFile) = fs.locate (case.child expectedFile)) :
    (∃ f, rebuildCase fs case name = .error f ∧ rebuildCase fs' case name = .error f) ∨
      ∃ t l content hv, Recording fs case name t l content ∧
        rebuildCase fs case name = .ok (t, fs.put l (.file content) hv) ∧
        rebuildCase fs' case name = .ok (t, fs'.put l (.file content) hv) := by
  simp only [rebuildCase, houtput]
  cases hrendered : output fs case name with
  | error f => exact .inl ⟨f, rfl, rfl⟩
  | ok t =>
    simp only [ok_bind]
    cases hencoded : Utf8.encode t with
    | error e => exact .inl ⟨_, rfl, rfl⟩
    | ok content =>
      rcases h.writeFile_alike hlocate content with ⟨r, hfs, hfs'⟩ | ⟨l, hv, hl, hfs, hfs'⟩
      · simp only [hfs, hfs']
        exact .inl ⟨_, rfl, rfl⟩
      · simp only [hfs, hfs']
        exact .inr ⟨t, l, content, hv, ⟨hrendered, hencoded, hl⟩, rfl, rfl⟩

theorem loadInputs_located {fs : FileSystem} {case : Path} {xs : List Int}
    (h : loadInputs fs case = .ok xs) :
    ∃ up content, fs.locate case = .ok up ∧
      fs.locate (case.child inputsFile) = .ok (inputsName :: up) ∧
      fs.lookup? (inputsName :: up) = some (.file content) := by
  obtain ⟨t, ht, -⟩ := FileSystem.readJson_eq_ok_iff.1 (loadInputs_eq_ok_iff.1 h)
  obtain ⟨content, -, hfile, -⟩ := FileSystem.readText_eq_ok_iff.1 ht
  obtain ⟨l, hl, hentry⟩ := FileSystem.readFile_eq_ok_iff.1 hfile
  obtain ⟨up, hup, -, rfl⟩ := inputsFile_plain.locate_child hl
  exact ⟨up, content, hup, hl, hentry⟩

/-- A recording lies beside the inputs that it is made from. -/
theorem Recording.beside_inputs {fs : FileSystem} {case : Path} {name t : Text} {l : Location}
    {content : Bytes} (h : Recording fs case name t l content) :
    ∃ up xs, fs.locate case = .ok up ∧ fs.lookup? up = some .directory ∧ l = expectedName :: up ∧
      loadInputs fs case = .ok xs ∧ inputsName ∈ fs.namesIn up := by
  obtain ⟨-, xs, -, hxs, -⟩ := output_eq_ok_iff.1 h.rendered
  obtain ⟨up, hup, hdir, rfl⟩ := expectedFile_plain.locate_child h.located
  -- Both files are looked for on the path of the case, which leads to one directory only.
  obtain ⟨up', _, hup', -, hentry⟩ := loadInputs_located hxs
  obtain rfl : up' = up := Except.ok.inj (hup'.symm.trans hup)
  exact ⟨up', xs, hup, hdir, rfl, hxs, FileSystem.mem_namesIn.2 (by simp [hentry])⟩

/-! ## 2. What is kept -/

/-- What rebuilding leaves as it is. The listing of a directory may gain the expected file, if it
lists the inputs. -/
structure Kept (before after : FileSystem) : Prop extends SameDirectories before after where
  entry : ∀ l, l.head? ≠ some expectedName → after.lookup? l = before.lookup? l
  names : ∀ l, after.namesIn l = before.namesIn l ∨
    inputsName ∈ before.namesIn l ∧ expectedName ∉ before.namesIn l ∧
      after.namesIn l = before.namesIn l ++ [expectedName]

theorem Kept.refl (fs : FileSystem) : Kept fs fs :=
  ⟨SameDirectories.refl fs, fun _ _ => rfl, fun _ => .inl rfl⟩

theorem Kept.trans {fs₁ fs₂ fs₃ : FileSystem} (h : Kept fs₁ fs₂) (h' : Kept fs₂ fs₃) :
    Kept fs₁ fs₃ where
  toSameDirectories := h.toSameDirectories.trans h'.toSameDirectories
  entry l hl := (h'.entry l hl).trans (h.entry l hl)
  names l := by
    rcases h.names l with heq | ⟨hinputs, hnew, heq⟩
    · rw [← heq]
      exact h'.names l
    · -- The expected file is listed now, so it cannot be new a second time.
      rcases h'.names l with heq' | ⟨-, hnew', -⟩
      · exact .inr ⟨hinputs, hnew, heq'.trans heq⟩
      · exact absurd (heq ▸ List.mem_append_right _ (List.mem_singleton.2 rfl)) hnew'

theorem rebuildCase_kept {fs fs' : FileSystem} {case : Path} {name t : Text}
    (h : rebuildCase fs case name = .ok (t, fs')) : Kept fs fs' := by
  obtain ⟨l, content, hl, hrec, hdir, rfl⟩ := rebuildCase_eq_ok_iff.1 h
  obtain ⟨up, -, -, -, rfl, -, hinputs⟩ := hrec.beside_inputs
  refine ⟨FileSystem.put_sameDirectories hl hdir content, fun m hm => ?_, fun m => ?_⟩
  · -- What is written is called `expected`.
    rw [FileSystem.lookup?_put, if_neg]
    rintro rfl
    exact hm rfl
  · -- Only the directory of the case lists a name more, and only if the file is new.
    rw [FileSystem.namesIn_put]
    split
    next hnone =>
      by_cases hm : up = m
      · subst hm
        refine .inr ⟨hinputs, fun hmem => FileSystem.mem_namesIn.1 hmem hnone, ?_⟩
        simp [FileSystem.nameIn]
      · exact .inl (by simp [FileSystem.nameIn, hm])
    next => exact .inl rfl

namespace Kept

variable {before after : FileSystem}

/-! ## 3. Reading what is kept -/

section
variable {t : Text} (ht : PlainName t) (hne : Utf8.encodeSystem t ≠ expectedName)
include ht hne

theorem entry_child (h : Kept before after) {p : Path} {l : Location}
    (hl : before.locate (p.child t) = .ok l) : after.lookup? l = before.lookup? l := by
  obtain ⟨up, -, -, rfl⟩ := ht.locate_child hl
  exact h.entry _ fun he => hne (Option.some.inj he)

theorem present_child (h : Kept before after) (p : Path) :
    after.present (p.child t) = before.present (p.child t) := by
  have hexists : after.exists? (p.child t) = before.exists? (p.child t) :=
    h.holds_eq fun l hl => by rw [h.entry_child ht hne hl]
  simp only [FileSystem.present, hexists]

theorem readJson_child (h : Kept before after) (p : Path) (v : Json.Value) :
    after.readJson (p.child t) = .ok v ↔ before.readJson (p.child t) = .ok v := by
  have hfile : ∀ content, after.readFile (p.child t) = .ok content ↔
      before.readFile (p.child t) = .ok content := by
    intro content
    simp only [FileSystem.readFile_eq_ok_iff]
    constructor
    · rintro ⟨l, hl, hentry⟩
      have hl' := ((h.locate_alike _).ok_iff l).1 hl
      exact ⟨l, hl', h.entry_child ht hne hl' ▸ hentry⟩
    · rintro ⟨l, hl, hentry⟩
      exact ⟨l, ((h.locate_alike _).ok_iff l).2 hl, (h.entry_child ht hne hl).trans hentry⟩
  simp only [FileSystem.readJson_eq_ok_iff, FileSystem.readText_eq_ok_iff, hfile]

end

theorem loadInputs_iff (h : Kept before after) (case : Path) (xs : List Int) :
    loadInputs after case = .ok xs ↔ loadInputs before case = .ok xs := by
  rw [loadInputs_eq_ok_iff, loadInputs_eq_ok_iff]
  exact h.readJson_child inputsFile_plain (by decide) case _

theorem output_iff (h : Kept before after) (case : Path) (name t : Text) :
    output after case name = .ok t ↔ output before case name = .ok t := by
  simp only [output_eq_ok_iff, h.loadInputs_iff]

theorem recording_iff (h : Kept before after) {case : Path} {name t : Text} {l : Location}
    {content : Bytes} :
    Recording after case name t l content ↔ Recording before case name t l content := by
  have houtput := h.output_iff case name t
  have hlocate := (h.locate_alike (case.child expectedFile)).ok_iff l
  constructor
  · intro hr
    exact ⟨houtput.1 hr.rendered, hr.encoded, hlocate.1 hr.located⟩
  · intro hr
    exact ⟨houtput.2 hr.rendered, hr.encoded, hlocate.2 hr.located⟩

/-! ## 4. Finding the same cases -/

theorem isCase_eq (h : Kept before after) (p : Path) : isCase after p = isCase before p := by
  simp only [isCase, h.isFolder_eq, h.present_child inputsFile_plain (by decide) p]

end Kept

theorem keepCases_congr {fs fs' : FileSystem} {ps : List Path}
    (h : ∀ p ∈ ps, isCase fs' p = isCase fs p) : keepCases fs' ps = keepCases fs ps := by
  induction ps with
  | nil => rfl
  | cons p ps ih =>
    have hps := ih fun q hq => h q (List.mem_cons_of_mem p hq)
    simp only [keepCases, h p List.mem_cons_self, hps]

theorem isCase_of_keepCases {fs : FileSystem} {ps cs : List Path} (h : keepCases fs ps = .ok cs) :
    ∀ p ∈ ps, ∃ b, isCase fs p = .ok b := by
  induction ps generalizing cs with
  | nil => exact nofun
  | cons p ps ih =>
    obtain ⟨b, hb, hrest⟩ := bind_eq_ok_iff.1 h
    obtain ⟨ds, hds, -⟩ := bind_eq_ok_iff.1 hrest
    exact List.forall_mem_cons.2 ⟨⟨b, hb⟩, ih hds⟩

/-- A path at the end that is no case makes no difference. -/
theorem keepCases_concat {fs : FileSystem} {ps : List Path} {p : Path}
    (h : ∀ cs, keepCases fs ps = .ok cs → isCase fs p = .ok false) :
    keepCases fs (ps ++ [p]) = keepCases fs ps := by
  induction ps with
  | nil =>
    have hp := h [] rfl
    simp only [List.nil_append, keepCases, hp, ok_bind]
    rfl
  | cons q ps ih =>
    simp only [List.cons_append, keepCases]
    cases hq : isCase fs q with
    | error f => rfl
    | ok b =>
      -- The assumption is about all of `q :: ps`; if `ps` is kept, so is that.
      have hps : keepCases fs (ps ++ [p]) = keepCases fs ps := by
        refine ih fun cs hcs => h (if b then q :: cs else cs) ?_
        rw [keepCases, hq, ok_bind, hcs, ok_bind]
      rw [ok_bind, ok_bind, hps]

/-- Where the inputs are listed and the expected file is not, the latter is no case, or its path is
as much too long as that of the inputs. -/
theorem isCase_expected {fs : FileSystem} {root : Path} {l : Location} {ps cs : List Path}
    (hl : fs.locate root = .ok l) (hnew : expectedName ∉ fs.namesIn l)
    (hps : keepCases fs ps = .ok cs) (hinputs : root.child inputsFile ∈ ps) :
    isCase fs (root.child expectedFile) = .ok false := by
  have hfolder : fs.isFolder (root.child expectedFile) = .ok false := by
    cases hm : fs.locate (root.child expectedFile) with
    | ok m =>
      obtain ⟨up, hup, -, rfl⟩ := expectedFile_plain.locate_child hm
      obtain rfl : up = l := Except.ok.inj (hup.symm.trans hl)
      have hnone : fs.lookup? (Utf8.encodeSystem expectedFile :: up) = none := by
        by_contra hsome
        exact hnew (FileSystem.mem_namesIn.2 hsome)
      exact FileSystem.isFolder_of_not_directory hm (by simp [hnone])
    | error r =>
      rcases FileSystem.locate_error hm with ha | rfl
      · exact FileSystem.isFolder_of_absent hm ha
      · -- The path of the inputs is too long as well, and that would have been met before.
        have hlong := expectedFile_plain.locate_tooLong inputsFile_plain (by decide) hm
        obtain ⟨b, hb⟩ := isCase_of_keepCases hps _ hinputs
        obtain ⟨c, hfolder, -⟩ := bind_eq_ok_iff.1 hb
        rw [FileSystem.isFolder_eq_error_iff.2 ⟨hlong, rfl⟩] at hfolder
        contradiction
  rw [isCase, hfolder]
  rfl

namespace Kept

variable {before after : FileSystem}

theorem keepCases_eq (h : Kept before after) (ps : List Path) :
    keepCases after ps = keepCases before ps :=
  keepCases_congr fun p _ => h.isCase_eq p

theorem findCases_eq (h : Kept before after) (root : Path) :
    findCases after root = findCases before root := by
  unfold findCases
  rw [h.isFolder_eq]
  cases hfolder : before.isFolder root with
  | error f => rfl
  | ok b =>
    cases b with
    | false => rfl
    | true =>
      obtain ⟨l, hl, hdir⟩ := FileSystem.isFolder_eq_true_iff.1 hfolder
      have hl' := ((h.locate_alike root).ok_iff l).2 hl
      have hdir' := (h.directory l).2 hdir
      simp only [entriesOf, FileSystem.list, hl, hl', hdir, hdir', ok_bind, if_true, h.keepCases_eq]
      rcases h.names l with heq | ⟨hinputs, hnew, heq⟩
      · rw [heq]
      · -- The root lists the expected file as well, being a case of another root.
        have hmem : root.child inputsFile ∈
            (before.namesIn l).map fun n => root.child (Utf8.decodeSystem n) :=
          List.mem_map.2 ⟨inputsName, hinputs, congrArg root.child (by decide)⟩
        have hconcat := keepCases_concat (p := root.child expectedFile)
          fun cs hcs => isCase_expected hl hnew hcs hmem
        rw [heq, List.map_append, List.map_singleton,
          show Utf8.decodeSystem expectedName = expectedFile from by decide, hconcat]

theorem selectCases_eq (h : Kept before after) (root : Path) (shown : Text) (name : Option Text) :
    selectCases after root shown name = selectCases before root shown name := by
  simp only [selectCases, h.findCases_eq]

end Kept

/-! ## 5. Several cases -/

/-- Cases rebuilt one after the other, each under one of `names`. -/
inductive Rebuilds (names : Text → Prop) (fs : FileSystem) : FileSystem → Prop
  | none : Rebuilds names fs fs
  | next {fs₁ fs₂ : FileSystem} {case : Path} {name t : Text} :
    Rebuilds names fs fs₁ → names name → rebuildCase fs₁ case name = .ok (t, fs₂) →
    Rebuilds names fs fs₂

namespace Rebuilds

variable {names : Text → Prop} {fs₁ fs₂ fs₃ : FileSystem}

theorem trans (h : Rebuilds names fs₁ fs₂) (h' : Rebuilds names fs₂ fs₃) :
    Rebuilds names fs₁ fs₃ := by
  induction h' with
  | none => exact h
  | next _ hname hstep ih => exact ih.next hname hstep

theorem mono (h : Rebuilds names fs₁ fs₂) {names' : Text → Prop}
    (hle : ∀ name, names name → names' name) : Rebuilds names' fs₁ fs₂ := by
  induction h with
  | none => exact .none
  | next _ hname hstep ih => exact ih.next (hle _ hname) hstep

theorem kept (h : Rebuilds names fs₁ fs₂) : Kept fs₁ fs₂ := by
  induction h with
  | none => exact Kept.refl fs₁
  | next _ _ hstep ih => exact ih.trans (rebuildCase_kept hstep)

end Rebuilds

theorem rebuildCases_rebuilds (name : Text) (fs : FileSystem) (cs : List Path) :
    Rebuilds (· = name) fs (rebuildCases name fs cs).1 := by
  induction cs generalizing fs with
  | nil => exact .none
  | cons c cs ih =>
    rw [rebuildCases]
    split
    · exact .none
    next t fs₁ hcase =>
      have hone : Rebuilds (· = name) fs fs₁ := Rebuilds.none.next rfl hcase
      split
      · exact hone
      · exact hone.trans (ih fs₁)

/-! ## 6. Small roots -/

/-- The root `golden` of the working directory, with the case `a` whose input is 2. -/
def oneCase : FileSystem where
  entries :=
    [([Utf8.encodeSystem "golden"], .directory),
      ([Utf8.encodeSystem "a", Utf8.encodeSystem "golden"], .directory),
      ([inputsName, Utf8.encodeSystem "a", Utf8.encodeSystem "golden"],
        .file (Utf8.encodeSystem "[2]"))]
  workingDirectory := []
  distinct := by decide
  valid := by decide

/-- The location of the case of `oneCase`. -/
def onlyCase : Location := [Utf8.encodeSystem "a", Utf8.encodeSystem "golden"]

/-- The root `g` of the working directory.  Its case `a` is up to date under the name `main`, and
`b`, which is listed before it, has no expected file. -/
def twoCases : FileSystem where
  entries :=
    [([Utf8.encodeSystem "g"], .directory),
      ([Utf8.encodeSystem "b", Utf8.encodeSystem "g"], .directory),
      ([inputsName, Utf8.encodeSystem "b", Utf8.encodeSystem "g"],
        .file (Utf8.encodeSystem "[9, -1]")),
      ([Utf8.encodeSystem "a", Utf8.encodeSystem "g"], .directory),
      ([inputsName, Utf8.encodeSystem "a", Utf8.encodeSystem "g"], .file (Utf8.encodeSystem "[2]")),
      ([expectedName, Utf8.encodeSystem "a", Utf8.encodeSystem "g"],
        .file (Utf8.encodeSystem "main(2) = 1\n"))]
  workingDirectory := []
  distinct := by decide
  valid := by decide

/-- Nothing is chosen, so that the root is `golden` and the entry point is the check. -/
def unset : Environment := ⟨none, none, Path.ofText "golden"⟩

end Golden
end GoldenCheck
