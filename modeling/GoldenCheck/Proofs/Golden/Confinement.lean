import GoldenCheck.Golden.Command
import GoldenCheck.Proofs.Golden.Discovery

/-!
# Where the command writes

The command writes only if its arguments ask for a rebuild and nothing stops it before.  Then it writes
expected files of the selected cases, and these are entries of the root: a name that leads elsewhere,
like `..` or a path, is the name of no entry.
-/

namespace GoldenCheck
namespace Golden

/-! ## 1. The root of a request -/

/-- The root that a request names: its own directory, or if that is absent or empty the one of the
environment, or if that is unset or empty the default. -/
def Request.Names (r : Request) (env : Environment) (root : Path) : Prop :=
  (∃ d, r.dir = some d ∧ d ≠ [] ∧ root = Path.ofText d) ∨
    (r.dir = none ∨ r.dir = some []) ∧
      ((∃ v, env.goldenDir = some v ∧ v ≠ [] ∧ root = Path.ofText (Utf8.decodeSystem v)) ∨
        (env.goldenDir = none ∨ env.goldenDir = some []) ∧ root = env.defaultRoot)

theorem Environment.root_eq (env : Environment) :
    (∃ v, env.goldenDir = some v ∧ v ≠ [] ∧ env.root = Path.ofText (Utf8.decodeSystem v)) ∨
      (env.goldenDir = none ∨ env.goldenDir = some []) ∧ env.root = env.defaultRoot := by
  unfold Environment.root chosenBy?
  match hv : env.goldenDir with
  | none => exact .inr ⟨.inl rfl, rfl⟩
  | some [] => exact .inr ⟨.inr rfl, rfl⟩
  | some (b :: v) =>
    refine .inl ⟨b :: v, rfl, List.cons_ne_nil b v, ?_⟩
    -- A value that is not empty has a text that is not.
    cases ht : Utf8.decodeSystem (b :: v) with
    | nil =>
      have hback := Utf8.encodeSystem_decodeSystem (b :: v)
      rw [ht] at hback
      contradiction
    | cons p t => simp only [Option.map_some, ht, chosen?]

theorem Request.names_root (r : Request) (env : Environment) : r.Names env (r.root env) := by
  unfold Request.Names Request.root
  match hd : r.dir with
  | none => exact .inr ⟨.inl rfl, env.root_eq⟩
  | some [] => exact .inr ⟨.inr rfl, env.root_eq⟩
  | some (p :: t) => exact .inl ⟨p :: t, rfl, List.cons_ne_nil p t, rfl⟩

/-! ## 2. What rebuilding cases changes -/

/-- Only the expected files of the cases change, where these are before the first is rebuilt. -/
theorem rebuildCases_changes {name : Text} {fs : FileSystem} {cs : List Path} {l : Location}
    (h : (rebuildCases name fs cs).1.lookup? l ≠ fs.lookup? l) :
    ∃ c ∈ cs, fs.locate (c.child expectedFile) = .ok l := by
  induction cs generalizing fs with
  | nil => exact absurd rfl h
  | cons c cs ih =>
    rw [rebuildCases] at h
    split at h
    · exact absurd rfl h
    next t fs₁ hcase =>
      have hkept := rebuildCase_kept hcase
      obtain ⟨m, content, hm, hrec, -, hput⟩ := rebuildCase_eq_ok_iff.1 hcase
      by_cases hlm : l = m
      · exact ⟨c, List.mem_cons_self, hlm ▸ hrec.located⟩
      · have hsame : fs₁.lookup? l = fs.lookup? l := by
          rw [hput, FileSystem.lookup?_put, if_neg hlm]
        rw [← hsame] at h
        split at h
        · exact absurd rfl h
        · -- The cases that follow are where they were before `c` was rebuilt.
          obtain ⟨d, hd, hl⟩ := ih h
          exact ⟨d, List.mem_cons_of_mem _ hd, ((hkept.locate_alike _).ok_iff l).1 hl⟩

/-- The texts that are the name of no entry: none, the directory, the one above it, and paths. -/
def Pathlike (t : Text) : Prop := t = [] ∨ t = "." ∨ t = ".." ∨ Path.slash ∈ t

theorem not_pathlike_decodeSystem {n : FileName} (h : FileName.Valid n) :
    ¬ Pathlike (Utf8.decodeSystem n) := by
  have hback := Utf8.encodeSystem_decodeSystem n
  rintro (ht | ht | ht | ht)
  · rw [ht] at hback
    exact h.1 hback.symm
  · rw [ht] at hback
    exact h.2.1 (hback.symm.trans (by decide))
  · rw [ht] at hback
    exact h.2.2.1 (hback.symm.trans (by decide))
  · exact FileSystem.slash_not_mem_decodeSystem h ht

/-! ## 3. The command -/

theorem goldenCommand_of_request {args : List Text} {r : Request} (h : parseRequest args = .proceed r)
    (env : Environment) (fs : FileSystem) :
    goldenCommand env fs args =
      ((perform env fs r).1, Console.ofTranscript (perform env fs r).2) := by
  simp only [goldenCommand, h]

theorem perform_unchanged {env : Environment} {fs : FileSystem} {r : Request}
    (h : r.rebuild = false ∨ r.list = true) : (perform env fs r).1 = fs := by
  unfold perform
  by_cases hlist : r.list = true
  · rw [if_pos hlist]
  · rw [if_neg hlist]
    have hrebuild : r.rebuild = false := h.resolve_right hlist
    cases r.entryName env fs with
    | error f => rfl
    | ok name => simp only [hrebuild, Bool.false_eq_true, if_false]

/-- A request leaves everything as it is or rebuilds cases of its root, all of the name that it asks
for. -/
theorem perform_eq_rebuildCases (env : Environment) (fs : FileSystem) (r : Request) :
    (perform env fs r).1 = fs ∨
      ∃ name cases, selectCases fs (r.root env) (r.root env).toText r.case = .ok cases ∧
        (perform env fs r).1 = (rebuildCases name fs cases).1 := by
  by_cases hquiet : r.rebuild = false ∨ r.list = true
  · exact .inl (perform_unchanged hquiet)
  · simp only [not_or, Bool.not_eq_false, Bool.not_eq_true] at hquiet
    unfold perform
    rw [if_neg (by simp [hquiet.2])]
    cases r.entryName env fs with
    | error f => exact .inl rfl
    | ok name =>
      simp only [hquiet.1, if_true, rebuildAll]
      cases hcases : selectCases fs (r.root env) (r.root env).toText r.case with
      | error f => exact .inl rfl
      | ok cases => exact .inr ⟨name, cases, rfl, rfl⟩

/-- Whatever the arguments, the file system stays as it is unless they ask for a rebuild; then only the
expected files of cases of the root can change, of the one case if a case is named, and of none if the
name is no name of an entry. -/
theorem writes_confined (env : Environment) (fs : FileSystem) (args : List Text) :
    ((¬ ∃ r, parseRequest args = .proceed r ∧ r.rebuild = true ∧ r.list = false) →
      (goldenCommand env fs args).1 = fs) ∧
    ∀ r, parseRequest args = .proceed r → ∃ root, r.Names env root ∧
      (∀ l, (goldenCommand env fs args).1.lookup? l ≠ fs.lookup? l →
        ∃ up n, CaseAt fs root up n ∧ l = expectedName :: n :: up ∧
          fs.locate ((casePath root n).child expectedFile) = .ok l ∧
          ∀ t, r.case = some t → t = Utf8.decodeSystem n) ∧
      ∀ t, r.case = some t → Pathlike t → (goldenCommand env fs args).1 = fs := by
  constructor
  · intro hquiet
    unfold goldenCommand
    split
    next => rfl
    next => rfl
    next r hr =>
      refine perform_unchanged ?_
      by_contra hloud
      simp only [not_or, Bool.not_eq_false, Bool.not_eq_true] at hloud
      exact hquiet ⟨r, hr, hloud⟩
  · intro r hr
    refine ⟨r.root env, r.names_root env, ?_⟩
    rw [goldenCommand_of_request hr]
    rcases perform_eq_rebuildCases env fs r with hsame | ⟨name, cases, hcases, hrebuilt⟩
    · rw [hsame]
      exact ⟨fun l hl => absurd rfl hl, fun _ _ _ => rfl⟩
    · rw [hrebuilt]
      refine ⟨fun l hl => ?_, fun t ht hpath => ?_⟩
      · obtain ⟨c, hc, hl⟩ := rebuildCases_changes hl
        obtain ⟨up, n, hcase, rfl, hat, hname⟩ := mem_selectCases hcases hc
        obtain ⟨d, hd, -, rfl⟩ := expectedFile_plain.locate_child hl
        obtain rfl : d = n :: up := Except.ok.inj (hd.symm.trans hat)
        exact ⟨up, n, hcase, rfl, hl, hname⟩
      · -- No case has such a name, so that none is selected.
        have hnone : cases = [] := by
          refine List.eq_nil_iff_forall_not_mem.2 fun c hc => ?_
          obtain ⟨up, n, hcase, -, -, hname⟩ := mem_selectCases hcases hc
          rw [hname t ht] at hpath
          exact not_pathlike_decodeSystem hcase.valid hpath
        rw [hnone]
        rfl

/-- A rebuild changes the expected file of the only case; by the path of that case nothing changes. -/
theorem oneCase_writes_confined :
    ((goldenCommand unset oneCase ["--rebuild"]).1.lookup? (expectedName :: onlyCase) ≠
        oneCase.lookup? (expectedName :: onlyCase) ∧
      ∃ root up n, Request.Names { rebuild := true } unset root ∧ CaseAt oneCase root up n ∧
        expectedName :: onlyCase = expectedName :: n :: up) ∧
    (goldenCommand unset oneCase ["--rebuild", "./a"]).1 = oneCase ∧
    (goldenCommand unset oneCase ["--rebuild", "--list"]).1 = oneCase := by
  have hchanged : (goldenCommand unset oneCase ["--rebuild"]).1.lookup? (expectedName :: onlyCase) ≠
      oneCase.lookup? (expectedName :: onlyCase) := by decide
  obtain ⟨-, hrebuild⟩ := writes_confined unset oneCase ["--rebuild"]
  obtain ⟨root, hroot, hwrites, -⟩ := hrebuild _ rfl
  obtain ⟨up, n, hcase, hat, -, -⟩ := hwrites _ hchanged
  obtain ⟨-, hpath⟩ := writes_confined unset oneCase ["--rebuild", "./a"]
  obtain ⟨_, -, -, hquiet⟩ := hpath _ rfl
  obtain ⟨hlist, -⟩ := writes_confined unset oneCase ["--rebuild", "--list"]
  refine ⟨⟨hchanged, root, up, n, hroot, hcase, hat⟩, hquiet _ rfl (.inr (.inr (.inr ?_))), hlist ?_⟩
  · decide
  · rintro ⟨r, hr, -, hoff⟩
    cases hr
    contradiction

end Golden
end GoldenCheck
