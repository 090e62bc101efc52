import GoldenCheck.Proofs.Golden.Confinement
import GoldenCheck.Proofs.Golden.EntryChoice
import GoldenCheck.Proofs.Golden.Report
import GoldenCheck.Proofs.Storage.Difference

/-!
# What a request does not look at

A request that names its entry point does not look at the variable and the configuration that would
name one, a request that names its directory not at the variable for it, and a listing at nothing
but which entries of the root are cases.  Two starts that differ only there have the same outcome,
unless a path of an entry of the root is too long.
-/

namespace GoldenCheck
namespace Golden

open FileSystem (SameDirectories DifferAt)

/-! ## 1. Finding the same cases -/

/-- Two file systems in which a root has cases of the same names. -/
def SameCases (root : Path) (fs fs' : FileSystem) : Prop :=
  ∀ n, (∃ up, CaseAt fs root up n) ↔ ∃ up, CaseAt fs' root up n

/-- The entries of the root at `up` that can stop discovery or be found by it: directories, and
those with a path that is too long to tell. -/
def candidates (fs : FileSystem) (root : Path) (up : Location) : List FileName :=
  (fs.namesIn up).filter fun n => fs.isFolder (casePath root n) ≠ .ok false

theorem keepCases_candidates (fs : FileSystem) (root : Path) (up : Location) :
    keepCases fs ((candidates fs root up).map (casePath root)) =
      keepCases fs ((fs.namesIn up).map (casePath root)) := by
  unfold candidates
  induction fs.namesIn up with
  | nil => rfl
  | cons n ns ih =>
    by_cases hn : fs.isFolder (casePath root n) = .ok false
    · -- What is no directory is no case and is passed over.
      have hcase : isCase fs (casePath root n) = .ok false := by
        rw [isCase, hn]
        rfl
      rw [List.filter_cons_of_neg (by simpa using hn), ih, List.map_cons, keepCases, hcase, ok_bind]
      cases keepCases fs (ns.map (casePath root)) <;> rfl
    · rw [List.filter_cons_of_pos (by simpa using hn), List.map_cons, List.map_cons, keepCases,
        keepCases, ih]

theorem exists_caseAt_iff {fs : FileSystem} {root : Path} {up : Location} {n : FileName}
    (hup : fs.locate root = .ok up) (hroot : fs.lookup? up = some .directory)
    (hfolder : fs.lookup? (n :: up) = some .directory) :
    (∃ up, CaseAt fs root up n) ↔ fs.lookup? (inputsName :: n :: up) ≠ none := by
  constructor
  · rintro ⟨up', hcase⟩
    obtain rfl : up' = up := Except.ok.inj (hcase.located.symm.trans hup)
    exact hcase.inputs
  · intro hinputs
    exact ⟨up, hup, hroot, hfolder, hinputs⟩

section
variable {fs fs' : FileSystem} {root : Path} (hdir : SameDirectories fs fs')
  (hcases : SameCases root fs fs')
include hdir hcases

theorem isCase_casePath_eq {up : Location} {n : FileName} (hup : fs.locate root = .ok up)
    (hroot : fs.lookup? up = some .directory) (hn : FileName.Valid n) :
    isCase fs' (casePath root n) = isCase fs (casePath root n) := by
  unfold isCase
  rw [hdir.isFolder_eq]
  cases hask : fs.isFolder (casePath root n) with
  | error f => rfl
  | ok b =>
    cases b with
    | false => rfl
    | true =>
      obtain ⟨d, hd, hfolder⟩ := FileSystem.isFolder_eq_true_iff.1 hask
      obtain rfl : d = n :: up := by
        rcases locate_casePath hup hroot hn with hat | hlong
        · exact Except.ok.inj (hd.symm.trans hat)
        · rw [hlong] at hd
          contradiction
      -- In a directory the question is about the inputs alone.
      have hinputs := hcases n
      rw [exists_caseAt_iff hup hroot hfolder,
        exists_caseAt_iff (((hdir.locate_alike root).ok_iff up).2 hup) ((hdir.directory _).2 hroot)
          ((hdir.directory _).2 hfolder)] at hinputs
      have hexists : fs'.exists? ((casePath root n).child inputsFile) =
          fs.exists? ((casePath root n).child inputsFile) := by
        refine hdir.holds_eq fun m hm => ?_
        obtain ⟨d, hd', -, rfl⟩ := inputsFile_plain.locate_child hm
        obtain rfl : n :: up = d := Except.ok.inj (hd.symm.trans hd')
        change (fs'.lookup? (inputsName :: n :: up)).any _ = (fs.lookup? (inputsName :: n :: up)).any _
        cases he : fs.lookup? (inputsName :: n :: up) <;>
          cases he' : fs'.lookup? (inputsName :: n :: up) <;> simp [he, he'] at hinputs ⊢
      simp only [FileSystem.present, hexists]

/-- With the same directories and candidates discovery has the same result, a refusal included. -/
theorem findCases_eq_of_candidates
    (hcand : ∀ up, fs.locate root = .ok up → fs.lookup? up = some .directory →
      candidates fs' root up = candidates fs root up) :
    findCases fs' root = findCases fs root := by
  unfold findCases
  rw [hdir.isFolder_eq]
  cases hfolder : fs.isFolder root with
  | error f => rfl
  | ok b =>
    cases b with
    | false => rfl
    | true =>
      obtain ⟨up, hup, hroot⟩ := FileSystem.isFolder_eq_true_iff.1 hfolder
      have hup' := ((hdir.locate_alike root).ok_iff up).2 hup
      have hroot' := (hdir.directory up).2 hroot
      have hkeep : keepCases fs' ((fs'.namesIn up).map (casePath root)) =
          keepCases fs ((fs.namesIn up).map (casePath root)) := by
        rw [← keepCases_candidates, ← keepCases_candidates, hcand up hup hroot]
        refine keepCases_congr fun p hp => ?_
        obtain ⟨n, hn, rfl⟩ := List.mem_map.1 hp
        have hvalid := FileSystem.valid_of_mem_namesIn (List.mem_filter.1 hn).1
        exact isCase_casePath_eq hdir hcases hup hroot hvalid
      simp only [entriesOf, FileSystem.list, hup, hup', hroot, hroot', ok_bind, if_true]
      change keepCases fs' ((fs'.namesIn up).map (casePath root)) >>= _ =
        keepCases fs ((fs.namesIn up).map (casePath root)) >>= _
      rw [hkeep]

end

/-! ## 2. The file of the configuration -/

def configName : FileName := Utf8.encodeSystem configFile

section
variable {fs fs' : FileSystem} {root : Path} {up : Location} (h : DifferAt (configName :: up) fs fs')
include h

theorem sameCases_of_differAt : SameCases root fs fs' := by
  have hinputs : ∀ n d, inputsName :: n :: d ≠ configName :: up := by
    intro n d heq
    exact absurd (List.cons.inj heq).1 (by decide)
  have hdir := h.sameDirectories
  intro n
  constructor
  · rintro ⟨d, hcase⟩
    refine ⟨d, ((hdir.locate_alike root).ok_iff d).2 hcase.located, (hdir.directory _).2 hcase.root,
      (hdir.directory _).2 hcase.folder, ?_⟩
    rw [h.lookup?_eq (hinputs n d)]
    exact hcase.inputs
  · rintro ⟨d, hcase⟩
    refine ⟨d, ((hdir.locate_alike root).ok_iff d).1 hcase.located, (hdir.directory _).1 hcase.root,
      (hdir.directory _).1 hcase.folder, ?_⟩
    rw [← h.lookup?_eq (hinputs n d)]
    exact hcase.inputs

/-- The configuration is no candidate if its path is not too long, whether or not it is there. -/
theorem candidates_of_differAt (hup : fs.locate root = .ok up)
    (hroot : fs.lookup? up = some .directory)
    (hpath : ¬ (root.child configFile).TooLong ∨
      fs'.entries.map Prod.fst = fs.entries.map Prod.fst) :
    candidates fs' root up = candidates fs root up := by
  unfold candidates
  simp only [h.sameDirectories.isFolder_eq]
  rcases hpath with hshort | hlisted
  · have hpath : fs.locate (root.child configFile) = .ok (configName :: up) :=
      (configFile_plain.locate_child_of hup hroot).resolve_right fun hlong =>
        hshort (FileSystem.tooLong_of_locate hlong)
    have hconfig : fs.isFolder (casePath root configName) = .ok false := by
      have hat : casePath root configName = root.child configFile := congrArg root.child (by decide)
      rw [hat]
      exact FileSystem.isFolder_of_not_directory hpath h.noDirectory
    -- Leaving out the configuration first makes no difference, and then the names are the same.
    have hleave : ∀ ns : List FileName,
        (ns.filter fun n => fs.isFolder (casePath root n) ≠ .ok false) =
          (ns.filter (· ≠ configName)).filter fun n => fs.isFolder (casePath root n) ≠ .ok false := by
      intro ns
      rw [List.filter_filter]
      refine List.filter_congr fun n _ => ?_
      by_cases hn : n = configName
      · simp [hn, hconfig]
      · simp [hn]
    rw [hleave, hleave (fs.namesIn up), FileSystem.filter_namesIn, FileSystem.filter_namesIn, h.others]
  · -- A listing shows locations only.
    have hblind : ∀ es : List (Location × Entry), es.filterMap (FileSystem.nameIn up) =
        (es.map Prod.fst).filterMap fun l => FileSystem.nameIn up (l, .directory) := by
      intro es
      rw [List.filterMap_map]
      congr 1
      funext e
      obtain ⟨l, x⟩ := e
      cases l <;> rfl
    rw [FileSystem.namesIn, FileSystem.namesIn, hblind, hblind fs.entries, hlisted]

end

/-! ## 3. Running and rebuilding -/

section
variable {l : Location} {fs fs' : FileSystem} (h : DifferAt l fs fs')
include h

theorem output_alike {c : Path} (hc : fs.Apart l c) (name : Text) :
    output fs' c name = output fs c name := by
  have hinputs : loadInputs fs' c = loadInputs fs c := by
    simp only [loadInputs, FileSystem.readJson, h.readText_child_eq hc inputsFile_plain]
  simp only [output, hinputs]

theorem runCase_alike {c : Path} (hc : fs.Apart l c) (name : Text) :
    runCase fs' c name = runCase fs c name := by
  have hexpected : loadExpected fs' c = loadExpected fs c := by
    simp only [loadExpected, h.present_child_eq hc expectedFile_plain,
      h.readText_child_eq hc expectedFile_plain]
  simp only [runCase, output_alike h hc, hexpected]

theorem runCases_alike {cs : List Path} (hcs : ∀ c ∈ cs, fs.Apart l c) (name : Text) :
    runCases fs' name cs = runCases fs name cs :=
  runCases_congr fun c hc => runCase_alike h (hcs c hc) name

/-- A case is rebuilt in both by the same write, or fails in both for the same reason. -/
theorem rebuildCase_alike {c : Path} (hc : fs.Apart l c) (name : Text) :
    (∃ f, rebuildCase fs c name = .error f ∧ rebuildCase fs' c name = .error f) ∨
      ∃ t m x hv, m ≠ l ∧ rebuildCase fs c name = .ok (t, fs.put m x hv) ∧
        rebuildCase fs' c name = .ok (t, fs'.put m x hv) := by
  rcases rebuildCase_of_agree h.sameDirectories (output_alike h hc name)
    (h.locate_child_eq hc expectedFile_plain) with hfail | ⟨t, m, content, hv, hrec, hfs, hfs'⟩
  · exact .inl hfail
  · exact .inr ⟨t, m, _, hv, hc.ne_of_locate_child expectedFile_plain hrec.located, hfs, hfs'⟩

end

/-- Two runs from starts that differ at `l` only: they show the same and leave the same, except that
each leaves at `l` what it found there. -/
structure SameOutcome {α : Type} (l : Location) (fs fs' : FileSystem) (x x' : FileSystem × α) :
    Prop where
  shown : x'.2 = x.2
  left : DifferAt l x.1 x'.1
  kept : x.1.lookup? l = fs.lookup? l
  kept' : x'.1.lookup? l = fs'.lookup? l

theorem SameOutcome.of_unchanged {α : Type} {l : Location} {fs fs' : FileSystem}
    (h : DifferAt l fs fs') (a : α) : SameOutcome l fs fs' (fs, a) (fs', a) :=
  ⟨rfl, h, rfl, rfl⟩

theorem rebuildCases_alike {l : Location} {fs fs' : FileSystem} (h : DifferAt l fs fs')
    {cs : List Path} (hcs : ∀ c ∈ cs, fs.Apart l c) (name : Text) :
    SameOutcome l fs fs' (rebuildCases name fs cs) (rebuildCases name fs' cs) := by
  -- Each rebuilt case leaves two file systems that differ as before, in which the others are apart.
  induction cs generalizing fs fs' with
  | nil => exact .of_unchanged h _
  | cons c cs ih =>
    rw [rebuildCases, rebuildCases]
    rcases rebuildCase_alike h (hcs c List.mem_cons_self) name with
      ⟨f, hfs, hfs'⟩ | ⟨t, m, x, hv, hne, hfs, hfs'⟩
    · rw [hfs, hfs']
      exact .of_unchanged h _
    · have hkept := rebuildCase_kept hfs
      have hput : DifferAt l (fs.put m x hv) (fs'.put m x hv) := h.put hne x hv
      have hfound : ∀ g : FileSystem, (g.put m x hv).lookup? l = g.lookup? l := by
        intro g
        rw [FileSystem.lookup?_put, if_neg hne.symm]
      rw [hfs, hfs']
      cases hprint : (Transcript.printLine (rebuiltLine c)).result with
      | error f => exact ⟨rfl, hput, hfound fs, hfound fs'⟩
      | ok _ =>
        have hrest := ih hput fun d hd =>
          hkept.toSameDirectories.apart (hcs d (List.mem_cons_of_mem c hd))
        refine ⟨?_, hrest.left, hrest.kept.trans (hfound fs), hrest.kept'.trans (hfound fs')⟩
        simp only [hrest.shown]

/-! ## 4. Requests -/

theorem SameOutcome.map {α β : Type} {l : Location} {fs fs' : FileSystem} {x x' : FileSystem × α}
    (h : SameOutcome l fs fs' x x') (f : α → β) :
    SameOutcome l fs fs' (x.1, f x.2) (x'.1, f x'.2) :=
  ⟨congrArg f h.shown, h.left, h.kept, h.kept'⟩

theorem Request.root_of_dir {r : Request} {d : Text} (h : r.dir = some d) (hd : d ≠ [])
    (env : Environment) : r.root env = Path.ofText d := by
  cases d with
  | nil => contradiction
  | cons p t => simp only [Request.root, h, chosen?]

theorem Request.entryName_of_entry {r : Request} {t : Text} (h : r.entry = some t) (ht : t ≠ [])
    (env : Environment) (fs : FileSystem) :
    r.entryName env fs = (EntryPoint.ofName t).map fun _ => t := by
  cases t with
  | nil => contradiction
  | cons p t => simp only [Request.entryName, h, chosen?]

/-- The environment matters for the root and the entry point only. -/
theorem perform_eq_of_environment {r : Request} {env env' : Environment} {fs : FileSystem}
    (hroot : r.root env' = r.root env) (hname : r.entryName env' fs = r.entryName env fs) :
    perform env' fs r = perform env fs r := by
  simp only [perform, hroot, hname]

/-- A request that names its entry point has the same outcome with and without a configuration. -/
theorem perform_alike {r : Request} {t : Text} (hentry : r.entry = some t) (ht : t ≠ [])
    {env : Environment} {fs fs' : FileSystem} {up : Location}
    (hup : fs.locate (r.root env) = .ok up) (h : DifferAt (configName :: up) fs fs')
    (hpath : ¬ ((r.root env).child configFile).TooLong ∨
      fs'.entries.map Prod.fst = fs.entries.map Prod.fst) :
    SameOutcome (configName :: up) fs fs' (perform env fs r) (perform env fs' r) := by
  have hfind : findCases fs' (r.root env) = findCases fs (r.root env) := by
    refine findCases_eq_of_candidates h.sameDirectories (sameCases_of_differAt h) fun d hd hroot => ?_
    obtain rfl : up = d := Except.ok.inj (hup.symm.trans hd)
    exact candidates_of_differAt h hup hroot hpath
  have hselect : selectCases fs' (r.root env) (r.root env).toText r.case =
      selectCases fs (r.root env) (r.root env).toText r.case := by
    simp only [selectCases, hfind]
  -- The files of a case lie one directory further down than the configuration.
  have hapart : ∀ cases, selectCases fs (r.root env) (r.root env).toText r.case = .ok cases →
      ∀ c ∈ cases, fs.Apart (configName :: up) c := by
    intro cases hcases c hc
    obtain ⟨d, n, hcase, -, hat, -⟩ := mem_selectCases hcases hc
    obtain rfl : up = d := Except.ok.inj (hup.symm.trans hcase.located)
    exact ⟨n :: up, hat, hcase.folder, List.cons_ne_self n up⟩
  unfold perform
  simp only [Request.entryName_of_entry hentry ht, listCases, hfind]
  by_cases hlist : r.list = true
  · simp only [hlist, if_true]
    exact .of_unchanged h _
  · simp only [hlist, Bool.false_eq_true, if_false]
    cases (EntryPoint.ofName t).map fun _ => t with
    | error f => exact .of_unchanged h _
    | ok name =>
      cases hcases : selectCases fs (r.root env) (r.root env).toText r.case with
      | error f =>
        simp only [rebuildAll, runAll, hselect, hcases]
        split
        · exact .of_unchanged h _
        · exact .of_unchanged h _
      | ok cases =>
        simp only [rebuildAll, runAll, hselect, hcases]
        split
        · exact (rebuildCases_alike h (hapart cases hcases) name).map fun x =>
            reporting x fun _ => pure 0
        · have hrun := runCases_alike h (hapart cases hcases) name
          change SameOutcome _ fs fs' (fs, reporting (Transcript.ofExcept (.ok cases) >>= _) _)
            (fs', reporting (Transcript.ofExcept (.ok cases) >>= _) _)
          rw [Transcript.bind_of_ok rfl, Transcript.bind_of_ok rfl, hrun]
          exact .of_unchanged h _

/-! ## 5. Listings -/

/-- The run ends because a path is refused as too long, and the path is too long. -/
def StopsTooLong (c : Console) : Prop :=
  ∃ p : Path, p.TooLong ∧ c.ending = .failed (.refused .nameTooLong p.toText)

theorem listCases_of_error {fs : FileSystem} {root : Path} {f : Fault}
    (h : findCases fs root = .error f) :
    (Console.ofTranscript (listCases fs root)).ending = .failed f := by
  simp only [listCases, h]
  rfl

/-- Roots with the same cases have the same listing, if discovery comes to its end in both. -/
theorem listCases_alike {fs fs' : FileSystem} {root : Path} (h : SameCases root fs fs') :
    listCases fs' root = listCases fs root ∨
      StopsTooLong (Console.ofTranscript (listCases fs root)) ∨
      StopsTooLong (Console.ofTranscript (listCases fs' root)) := by
  cases hfs : findCases fs root with
  | error f =>
    obtain ⟨p, -, hlong, rfl⟩ := findCases_eq_error hfs
    exact .inr (.inl ⟨p, hlong, listCases_of_error hfs⟩)
  | ok cs =>
    cases hfs' : findCases fs' root with
    | error f =>
      obtain ⟨p, -, hlong, rfl⟩ := findCases_eq_error hfs'
      exact .inr (.inr ⟨p, hlong, listCases_of_error hfs'⟩)
    | ok ds =>
      left
      simp only [listCases, hfs, hfs', findCases_unique hfs hfs' h]

theorem goldenCommand_of_list {args : List Text} {r : Request} (h : parseRequest args = .proceed r)
    (hlist : r.list = true) (env : Environment) (fs : FileSystem) :
    goldenCommand env fs args = (fs, Console.ofTranscript (listCases fs (r.root env))) := by
  rw [goldenCommand_of_request h]
  simp only [perform, hlist, if_true]

/-! ## 6. The command -/

/-- A request that names its entry point has the same outcome whatever the variable for it and the
configuration are, and one that names its directory whatever the variable for that is.  A listing
changes nothing and shows the same for the same cases of the same root.  Only a path that is too
long can make a difference, the one of the configuration or of another entry of the root. -/
theorem outcome_ignores_overridden {args : List Text} {r : Request}
    (hr : parseRequest args = .proceed r) (env : Environment) (fs : FileSystem) :
    (∀ t, r.entry = some t → t ≠ [] → ∀ v,
      goldenCommand { env with entryFunc := v } fs args = goldenCommand env fs args ∧
      ∀ fs' up, fs.locate (r.root env) = .ok up → DifferAt (configName :: up) fs fs' →
        ¬ ((r.root env).child configFile).TooLong ∨
          fs'.entries.map Prod.fst = fs.entries.map Prod.fst →
        SameOutcome (configName :: up) fs fs' (goldenCommand env fs args)
          (goldenCommand { env with entryFunc := v } fs' args)) ∧
    (∀ d, r.dir = some d → d ≠ [] → ∀ v,
      goldenCommand { env with goldenDir := v } fs args = goldenCommand env fs args) ∧
    (r.list = true → (goldenCommand env fs args).1 = fs ∧
      ∀ args' r' env' fs', parseRequest args' = .proceed r' → r'.list = true →
        r'.root env' = r.root env → SameCases (r.root env) fs fs' →
        ((goldenCommand env' fs' args').2 = (goldenCommand env fs args).2 ∨
          StopsTooLong (goldenCommand env fs args).2 ∨
          StopsTooLong (goldenCommand env' fs' args').2) ∧
        (SameDirectories fs fs' →
          (∀ up, fs.locate (r.root env) = .ok up → fs.lookup? up = some .directory →
            candidates fs' (r.root env) up = candidates fs (r.root env) up) →
          (goldenCommand env' fs' args').2 = (goldenCommand env fs args).2)) := by
  refine ⟨fun t hentry ht v => ?_, fun d hd hne v => ?_, fun hlist => ?_⟩
  · -- The variable is read only if no entry point is named.
    have hvariable : ∀ g, perform { env with entryFunc := v } g r = perform env g r := by
      intro g
      refine perform_eq_of_environment rfl ?_
      rw [Request.entryName_of_entry hentry ht, Request.entryName_of_entry hentry ht]
    refine ⟨by simp only [goldenCommand_of_request hr, hvariable], ?_⟩
    intro fs' up hup hdiffer hpath
    simp only [goldenCommand_of_request hr, hvariable]
    exact (perform_alike hentry ht hup hdiffer hpath).map Console.ofTranscript
  · have hroot : r.root { env with goldenDir := v } = r.root env := by
      rw [Request.root_of_dir hd hne, Request.root_of_dir hd hne]
    have hname : r.entryName { env with goldenDir := v } fs = r.entryName env fs := by
      simp only [Request.entryName, hroot, entryValue]
    simp only [goldenCommand_of_request hr, perform_eq_of_environment hroot hname]
  · rw [goldenCommand_of_list hr hlist]
    refine ⟨rfl, fun args' r' env' fs' hr' hlist' hroot hcases => ?_⟩
    rw [goldenCommand_of_list hr' hlist', hroot]
    refine ⟨(listCases_alike hcases).imp_left (congrArg Console.ofTranscript), fun hdir hcand => ?_⟩
    simp only [listCases, findCases_eq_of_candidates hdir hcases hcand]

/-- The file system `oneCase` with a configuration that is no text. -/
def misconfigured : FileSystem where
  entries := oneCase.entries ++ [([configName, Utf8.encodeSystem "golden"], .file [0xFF])]
  workingDirectory := []
  distinct := by decide
  valid := by decide

theorem misconfigured_differs :
    DifferAt [configName, Utf8.encodeSystem "golden"] oneCase misconfigured :=
  ⟨rfl, by decide, by decide, by decide⟩

/-- The case is rebuilt beside a configuration that is no text, under variables that name nothing,
and a listing shows it in spite of arguments for a rebuild. -/
theorem misconfigured_outcome_ignores_overridden :
    SameOutcome [configName, Utf8.encodeSystem "golden"] oneCase misconfigured
      (goldenCommand unset oneCase ["--entry", "main", "--dir", "golden", "--rebuild"])
      (goldenCommand { unset with entryFunc := some [0xFF] } misconfigured
        ["--entry", "main", "--dir", "golden", "--rebuild"]) ∧
    goldenCommand { unset with goldenDir := some [0xFF] } oneCase
        ["--entry", "main", "--dir", "golden", "--rebuild"] =
      goldenCommand unset oneCase ["--entry", "main", "--dir", "golden", "--rebuild"] ∧
    (goldenCommand { unset with entryFunc := some [0xFF] } misconfigured
        ["--rebuild", "--list", "b"]).2 =
      (goldenCommand unset oneCase ["--list"]).2 := by
  have hparse : parseRequest ["--entry", "main", "--dir", "golden", "--rebuild"] =
      .proceed { dir := some "golden", entry := some "main", rebuild := true } := rfl
  have hlist : parseRequest ["--list"] = .proceed { list := true } := rfl
  obtain ⟨hentry, hdir, -⟩ := outcome_ignores_overridden hparse unset oneCase
  obtain ⟨-, -, hlisting⟩ := outcome_ignores_overridden hlist unset oneCase
  obtain ⟨-, hconfig⟩ := hentry "main" rfl (by decide) (some [0xFF])
  have hshort : ¬ ((Path.ofText "golden").child configFile).TooLong := by
    unfold Path.TooLong
    decide
  refine ⟨hconfig _ _ (by decide) misconfigured_differs (.inl hshort),
    hdir "golden" rfl (by decide) _, ?_⟩
  obtain ⟨-, hsame⟩ := hlisting rfl
  refine (hsame ["--rebuild", "--list", "b"] { rebuild := true, list := true, case := some "b" } _ _
    rfl rfl rfl (sameCases_of_differAt misconfigured_differs)).2
    misconfigured_differs.sameDirectories fun up hup hroot => ?_
  obtain rfl : [Utf8.encodeSystem "golden"] = up := Except.ok.inj hup
  exact candidates_of_differAt misconfigured_differs hup hroot (.inl hshort)

/-! ## 7. A configuration whose path is too long -/

/-- The directory `a` of the working directory, by a path of 4091 bytes. -/
def longRoot : Text := (List.replicate 818 ("a/../" : Text)).flatten ++ "a"

def bareFolder : FileSystem where
  entries := [([Utf8.encodeSystem "a"], .directory)]
  workingDirectory := []
  distinct := by decide
  valid := by decide

def configuredFolder : FileSystem where
  entries := bareFolder.entries ++
    [([configName, Utf8.encodeSystem "a"], .file (Utf8.encodeSystem "\x7b\x7d"))]
  workingDirectory := []
  distinct := by decide
  valid := by decide

/-- The path of a root can be short enough and that of its configuration too long.  Then a listing
that names its entry point still ends differently with and without the configuration. -/
theorem longRoot_configuration_stops_listing :
    DifferAt [configName, Utf8.encodeSystem "a"] bareFolder configuredFolder ∧
    SameCases (Path.ofText longRoot) bareFolder configuredFolder ∧
    (goldenCommand unset bareFolder ["--entry", "main", "--list", "--dir", longRoot]).2 =
      ⟨[], [], .returned 0⟩ ∧
    ∃ p, (goldenCommand unset configuredFolder
      ["--entry", "main", "--list", "--dir", longRoot]).2.ending =
        .failed (.refused .nameTooLong p) := by
  have hdiffer : DifferAt [configName, Utf8.encodeSystem "a"] bareFolder configuredFolder :=
    ⟨rfl, by decide, by decide, by decide⟩
  refine ⟨hdiffer, sameCases_of_differAt hdiffer, by decide +kernel, ?_⟩
  -- The path in the fault has some thousand characters and is not written out.
  have hstops : (match (goldenCommand unset configuredFolder
      ["--entry", "main", "--list", "--dir", longRoot]).2.ending with
      | .failed (.refused .nameTooLong _) => true
      | _ => false) = true := by decide +kernel
  split at hstops
  next p hp => exact ⟨p, hp⟩
  next => contradiction

end Golden
end GoldenCheck
