import GoldenCheck.Proofs.Golden.Discovery
import GoldenCheck.Proofs.Golden.UpToDate

/-!
# Rebuilding several cases at once

A case that was found is rebuilt, or fails, in the same way whether or not other cases were rebuilt
before.  Rebuilding several cases is therefore one simultaneous update of the file system it starts
from, in whatever order, and where a case fails it is the update by the cases before.
-/

namespace GoldenCheck

open FileSystem (PlainName)

/-! ## 1. A case after other rebuilds -/

namespace Golden
namespace Kept

variable {before after : FileSystem} (h : Kept before after) {c : Path}
  (hc : before.isDirectory? c = .ok true)
include h hc

theorem stat_child_eq {t : Text} (ht : PlainName t) (hne : Utf8.encodeSystem t ≠ expectedName) :
    after.stat (c.child t) = before.stat (c.child t) := by
  simp only [FileSystem.stat, h.locate_child_eq hc ht]
  cases hl : before.locate (c.child t) with
  | error r => rfl
  | ok l => simp only [h.entry_child ht hne hl]

theorem output_eq (name : Text) : output after c name = output before c name := by
  have hstat := h.stat_child_eq hc inputsFile_plain (by decide)
  simp only [output, loadInputs, FileSystem.readJson, FileSystem.readText, FileSystem.readFile, hstat]

/-- A case in a directory that was found is rebuilt by the same write, or fails for the same reason. -/
theorem rebuildCase_alike (name : Text) :
    (∃ f, rebuildCase before c name = .error f ∧ rebuildCase after c name = .error f) ∨
      ∃ t l content hv, Recording before c name t l content ∧
        rebuildCase before c name = .ok (t, before.put l (.file content) hv) ∧
        rebuildCase after c name = .ok (t, after.put l (.file content) hv) :=
  rebuildCase_of_agree h.toSameDirectories (h.output_eq hc name)
    (h.locate_child_eq hc expectedFile_plain)

end Kept

theorem isDirectory?_of_mem_selectCases {fs : FileSystem} {root : Path} {shown : Text}
    {name : Option Text} {cases : List Path} (h : selectCases fs root shown name = .ok cases)
    {c : Path} (hc : c ∈ cases) : fs.isDirectory? c = .ok true := by
  obtain ⟨up, n, hcase, -, hat, -⟩ := mem_selectCases h hc
  exact FileSystem.isDirectory?_eq_true_iff.2 ⟨n :: up, hat, hcase.folder⟩

/-! ## 2. The update by several cases -/

/-- After the update by the cases `cs` each of their expected files holds its recording, made from what
was there before, and everything else is as before. -/
structure Updated (name : Text) (cs : List Path) (before after : FileSystem) : Prop
    extends Kept before after where
  recorded : ∀ c ∈ cs, ∃ t l content, Recording before c name t l content ∧
    after.lookup? l = some (.file content)
  others : ∀ l, (∀ c ∈ cs, before.locate (c.child expectedFile) ≠ .ok l) →
    after.lookup? l = before.lookup? l

namespace Updated

variable {name : Text} {cs ds : List Path} {before after next : FileSystem}

theorem none (name : Text) (fs : FileSystem) : Updated name [] fs fs where
  toKept := Kept.refl fs
  recorded := List.forall_mem_nil _
  others _ _ := rfl

theorem concat (h : Updated name cs before after) {c : Path} {t : Text}
    (hc : rebuildCase after c name = .ok (t, next)) : Updated name (cs ++ [c]) before next := by
  obtain ⟨l, content, hl, hrec, -, rfl⟩ := rebuildCase_eq_ok_iff.1 hc
  have hrec' := h.recording_iff.1 hrec
  refine ⟨h.toKept.trans (rebuildCase_kept hc), fun d hd => ?_, fun m hm => ?_⟩
  · rcases List.mem_append.1 hd with hd | hd
    · obtain ⟨s, m, content', hrec'', hfile⟩ := h.recorded d hd
      refine ⟨s, m, content', hrec'', ?_⟩
      rw [FileSystem.lookup?_put]
      split
      next hml =>
        -- Two paths to one directory: the case is recorded a second time, and the same.
        subst hml
        rw [hrec''.unique hrec']
      next => exact hfile
    · obtain rfl := List.mem_singleton.1 hd
      exact ⟨t, l, content, hrec', by rw [FileSystem.lookup?_put, if_pos rfl]⟩
  · have hne : m ≠ l := by
      rintro rfl
      exact hm c (List.mem_append_right _ (List.mem_singleton.2 rfl)) hrec'.located
    rw [FileSystem.lookup?_put, if_neg hne]
    exact h.others m fun d hd => hm d (List.mem_append_left _ hd)

/-- The update is the same whichever way its cases are listed. -/
theorem lookup?_eq (h : Updated name cs before after) (h' : Updated name ds before next)
    (hmem : ∀ c, c ∈ cs ↔ c ∈ ds) (l : Location) : next.lookup? l = after.lookup? l := by
  by_cases hl : ∃ c ∈ cs, before.locate (c.child expectedFile) = .ok l
  · obtain ⟨c, hc, hat⟩ := hl
    obtain ⟨t, m, content, hrec, hfile⟩ := h.recorded c hc
    obtain ⟨t', m', content', hrec', hfile'⟩ := h'.recorded c ((hmem c).1 hc)
    obtain rfl : l = m := Except.ok.inj (hat.symm.trans hrec.located)
    obtain rfl : l = m' := Except.ok.inj (hat.symm.trans hrec'.located)
    rw [hfile, hfile', hrec.unique hrec']
  · have hnone : ∀ c ∈ cs, before.locate (c.child expectedFile) ≠ .ok l :=
      fun c hc hat => hl ⟨c, hc, hat⟩
    rw [h.others l hnone, h'.others l fun c hc => hnone c ((hmem c).2 hc)]

end Updated

/-- Two file systems in which every path leads to the same entry and every directory lists the same
names in the same order. -/
structure Same (fs fs' : FileSystem) : Prop where
  workingDirectory : fs'.workingDirectory = fs.workingDirectory
  entry : ∀ l, fs'.lookup? l = fs.lookup? l
  names : ∀ l, fs'.namesIn l = fs.namesIn l

/-- What is kept of one file system and has the same entries has the same listings. -/
theorem Kept.same {before after after' : FileSystem} (h : Kept before after)
    (h' : Kept before after') (hentry : ∀ l, after'.lookup? l = after.lookup? l) :
    Same after after' where
  workingDirectory := h'.workingDirectory.trans h.workingDirectory.symm
  entry := hentry
  names l := by
    -- A listing can only gain the expected file, and both have gained it or neither has.
    have hexpected : expectedName ∈ after'.namesIn l ↔ expectedName ∈ after.namesIn l := by
      rw [FileSystem.mem_namesIn, FileSystem.mem_namesIn, hentry]
    rcases h.names l with heq | ⟨-, hnew, heq⟩ <;> rcases h'.names l with heq' | ⟨-, hnew', heq'⟩
    · rw [heq, heq']
    · rw [heq, heq'] at hexpected
      exact absurd (hexpected.1 (by simp)) hnew'
    · rw [heq, heq'] at hexpected
      exact absurd (hexpected.2 (by simp)) hnew
    · rw [heq, heq']

/-! ## 3. One case after the other -/

/-- The case can be rebuilt. -/
def Rebuildable (fs : FileSystem) (name : Text) (c : Path) : Prop :=
  ∃ t fs', rebuildCase fs c name = .ok (t, fs')

instance (fs : FileSystem) (name : Text) (c : Path) : Decidable (Rebuildable fs name c) :=
  match h : rebuildCase fs c name with
  | .ok (t, fs') => .isTrue ⟨t, fs', h⟩
  | .error _ => .isFalse fun ⟨_, _, hok⟩ => by simp [h] at hok

/-- A case that can be rebuilt at the start can be rebuilt after others, which goes on with the
update. -/
theorem Updated.step {name : Text} {cs : List Path} {before after : FileSystem}
    (h : Updated name cs before after) {c : Path} (hdir : before.isDirectory? c = .ok true)
    (hc : Rebuildable before name c) :
    ∃ t next, rebuildCase after c name = .ok (t, next) ∧ Updated name (cs ++ [c]) before next := by
  obtain ⟨t, fs', hok⟩ := hc
  rcases h.rebuildCase_alike hdir name with ⟨f, hfail, -⟩ | ⟨s, l, content, hv, -, -, hafter⟩
  · rw [hok] at hfail
    contradiction
  · exact ⟨s, _, hafter, h.concat hafter⟩

/-- A case that cannot be rebuilt at the start cannot be rebuilt after others, for the same reason. -/
theorem Updated.rebuildCase_eq_error {name : Text} {cs : List Path} {before after : FileSystem}
    (h : Updated name cs before after) {c : Path} (hdir : before.isDirectory? c = .ok true) {f : Fault}
    (hc : rebuildCase before c name = .error f) : rebuildCase after c name = .error f := by
  rcases h.rebuildCase_alike hdir name with ⟨g, hfirst, hlast⟩ | ⟨t, l, content, hv, -, hfirst, -⟩
  · rw [hc] at hfirst
    cases hfirst
    exact hlast
  · rw [hc] at hfirst
    contradiction

/-- Rebuilds cases one by one, up to the first fault. -/
def rebuildEach (name : Text) (fs : FileSystem) (cs : List Path) : Except Fault FileSystem :=
  cs.foldlM (fun fs c => (rebuildCase fs c name).map Prod.snd) fs

theorem rebuildEach_updated {name : Text} {before after : FileSystem} {done cs : List Path}
    (h : Updated name done before after) (hdir : ∀ c ∈ cs, before.isDirectory? c = .ok true)
    (hcs : ∀ c ∈ cs, Rebuildable before name c) :
    ∃ last, rebuildEach name after cs = .ok last ∧ Updated name (done ++ cs) before last := by
  induction cs generalizing done after with
  | nil => exact ⟨after, rfl, by rwa [List.append_nil]⟩
  | cons c cs ih =>
    obtain ⟨t, next, hc, hnext⟩ := h.step (hdir c List.mem_cons_self) (hcs c List.mem_cons_self)
    obtain ⟨last, hlast, hupdated⟩ := ih hnext (fun d hd => hdir d (List.mem_cons_of_mem c hd))
      fun d hd => hcs d (List.mem_cons_of_mem c hd)
    refine ⟨last, ?_, by rwa [List.append_assoc] at hupdated⟩
    rw [rebuildEach, List.foldlM_cons, hc]
    exact hlast

/-- Cases that can be rebuilt each print their line and hand on the update to the cases that follow. -/
theorem rebuildCases_updated {name : Text} {before after : FileSystem} {done cs : List Path}
    (h : Updated name done before after) (hdir : ∀ c ∈ cs, before.isDirectory? c = .ok true)
    (hcs : ∀ c ∈ cs, Rebuildable before name c) (hlines : ∀ c ∈ cs, (rebuiltLine c).Encodable) :
    ∃ last, Updated name (done ++ cs) before last ∧ ∀ rest, rebuildCases name after (cs ++ rest) =
      ((rebuildCases name last rest).1,
        ⟨Text.lines (cs.map rebuiltLine) ++ (rebuildCases name last rest).2.printed,
          (rebuildCases name last rest).2.result.map (cs.map Path.name ++ ·)⟩) := by
  induction cs generalizing done after with
  | nil =>
    refine ⟨after, by rwa [List.append_nil], fun rest => ?_⟩
    -- Nothing is printed and no name is added.
    rcases hrest : rebuildCases name after rest with ⟨last, printed, result⟩
    cases result <;> simp [hrest, Text.lines, Except.map]
  | cons c cs ih =>
    obtain ⟨t, next, hc, hnext⟩ := h.step (hdir c List.mem_cons_self) (hcs c List.mem_cons_self)
    obtain ⟨last, hupdated, hrest⟩ := ih hnext (fun d hd => hdir d (List.mem_cons_of_mem c hd))
      (fun d hd => hcs d (List.mem_cons_of_mem c hd)) fun d hd => hlines d (List.mem_cons_of_mem c hd)
    refine ⟨last, by rwa [List.append_assoc] at hupdated, fun rest => ?_⟩
    rw [List.cons_append, rebuildCases_cons_of_ok hc (hlines c List.mem_cons_self), hrest]
    simp only [List.map_cons, Text.lines, List.flatMap_cons, List.flatMap_nil, List.append_nil,
      List.append_assoc]
    cases (rebuildCases name last rest).2.result <;> rfl

section
variable {fs : FileSystem} {name : Text} {cs : List Path}
  (hdir : ∀ c ∈ cs, fs.isDirectory? c = .ok true) (hcs : ∀ c ∈ cs, Rebuildable fs name c)
  (hlines : ∀ c ∈ cs, (rebuiltLine c).Encodable)
include hdir hcs hlines

theorem rebuildCases_of_rebuildable :
    (rebuildCases name fs cs).2 = ⟨Text.lines (cs.map rebuiltLine), .ok (cs.map Path.name)⟩ ∧
      Updated name cs fs (rebuildCases name fs cs).1 := by
  obtain ⟨last, hupdated, hrun⟩ := rebuildCases_updated (Updated.none name fs) hdir hcs hlines
  have hdone := hrun []
  rw [List.append_nil] at hdone
  rw [hdone]
  exact ⟨by simp [rebuildCases, pure, Except.map], hupdated⟩

/-- The first case that cannot be rebuilt ends it with its fault, after the update by those before. -/
theorem rebuildCases_of_fault {c : Path} (hc : fs.isDirectory? c = .ok true) {f : Fault}
    (hfail : rebuildCase fs c name = .error f) (after : List Path) :
    (rebuildCases name fs (cs ++ c :: after)).2 = ⟨Text.lines (cs.map rebuiltLine), .error f⟩ ∧
      Updated name cs fs (rebuildCases name fs (cs ++ c :: after)).1 := by
  obtain ⟨last, hupdated, hrun⟩ := rebuildCases_updated (Updated.none name fs) hdir hcs hlines
  rw [hrun, rebuildCases, hupdated.rebuildCase_eq_error hc hfail]
  exact ⟨by simp [Transcript.ofExcept, Except.map], hupdated⟩

end

/-! ## 4. All selected cases -/

/-- The line about a case can be printed if its path can. -/
theorem rebuiltLine_encodable {c : Path} (h : c.toText.Encodable) : (rebuiltLine c).Encodable := by
  rw [rebuiltLine, Path.toText_child, Text.encodable_append, Text.encodable_append]
  refine ⟨Text.encodable_ofChars _, ?_, Text.encodable_ofChars _⟩
  unfold Path.lead
  split
  · cases c.anchor <;> decide
  · exact (Text.encodable_append _ _).2 ⟨h, by decide⟩

/-- If each of the selected cases can be rebuilt in `fs`, rebuilding them all is one update of `fs`, and
rebuilding them one by one comes to the same in every order.  If not, the first that cannot ends it with
its fault, after the update by the cases before it and their lines. -/
theorem rebuildAll_updates_at_once {fs : FileSystem} {root : Path} {shown name : Text}
    {case : Option Text} {cases : List Path} (hcases : selectCases fs root shown case = .ok cases)
    (hpaths : ∀ c ∈ cases, c.toText.Encodable) :
    ((∀ c ∈ cases, Rebuildable fs name c) →
      (rebuildAll fs root shown name case).2 =
        ⟨Text.lines (cases.map rebuiltLine), .ok (cases.map Path.name)⟩ ∧
      Updated name cases fs (rebuildAll fs root shown name case).1 ∧
      ∀ order : List Path, order.Perm cases → ∃ fs', rebuildEach name fs order = .ok fs' ∧
        Same (rebuildAll fs root shown name case).1 fs') ∧
    ∀ (before : List Path) (c : Path) (after : List Path) (f : Fault),
      cases = before ++ c :: after → (∀ b ∈ before, Rebuildable fs name b) →
      rebuildCase fs c name = .error f →
      (rebuildAll fs root shown name case).2 = ⟨Text.lines (before.map rebuiltLine), .error f⟩ ∧
      Updated name before fs (rebuildAll fs root shown name case).1 := by
  have hdir : ∀ c ∈ cases, fs.isDirectory? c = .ok true :=
    fun c hc => isDirectory?_of_mem_selectCases hcases hc
  have hlines : ∀ c ∈ cases, (rebuiltLine c).Encodable :=
    fun c hc => rebuiltLine_encodable (hpaths c hc)
  have hall : rebuildAll fs root shown name case = rebuildCases name fs cases := by
    simp only [rebuildAll, hcases]
  rw [hall]
  constructor
  · intro hok
    obtain ⟨hshown, hupdated⟩ := rebuildCases_of_rebuildable hdir hok hlines
    refine ⟨hshown, hupdated, fun order hperm => ?_⟩
    obtain ⟨fs', heach, hupdated'⟩ := rebuildEach_updated (Updated.none name fs)
      (fun c hc => hdir c (hperm.mem_iff.1 hc)) fun c hc => hok c (hperm.mem_iff.1 hc)
    exact ⟨fs', heach, hupdated.same hupdated'.toKept
      (hupdated.lookup?_eq hupdated' fun c => hperm.mem_iff.symm)⟩
  · rintro before c after f rfl hbefore hfail
    have hmem : ∀ b ∈ before, b ∈ before ++ c :: after := fun b hb => List.mem_append_left _ hb
    exact rebuildCases_of_fault (fun b hb => hdir b (hmem b hb)) hbefore
      (fun b hb => hlines b (hmem b hb)) (hdir c (by simp)) hfail after

/-- Two roots: the cases `a` and `b` of `golden` can be rebuilt, and of the cases of `mixed` the second
cannot. -/
def twoRoots : FileSystem where
  entries :=
    [([Utf8.encodeSystem "golden"], .directory),
      ([Utf8.encodeSystem "a", Utf8.encodeSystem "golden"], .directory),
      ([inputsName, Utf8.encodeSystem "a", Utf8.encodeSystem "golden"],
        .file (Utf8.encodeSystem "[2]")),
      ([Utf8.encodeSystem "b", Utf8.encodeSystem "golden"], .directory),
      ([inputsName, Utf8.encodeSystem "b", Utf8.encodeSystem "golden"],
        .file (Utf8.encodeSystem "[-1, 4]")),
      ([expectedName, Utf8.encodeSystem "b", Utf8.encodeSystem "golden"],
        .file (Utf8.encodeSystem "old")),
      ([Utf8.encodeSystem "mixed"], .directory),
      ([Utf8.encodeSystem "a", Utf8.encodeSystem "mixed"], .directory),
      ([inputsName, Utf8.encodeSystem "a", Utf8.encodeSystem "mixed"], .file (Utf8.encodeSystem "[5]")),
      ([Utf8.encodeSystem "b", Utf8.encodeSystem "mixed"], .directory),
      ([inputsName, Utf8.encodeSystem "b", Utf8.encodeSystem "mixed"],
        .file (Utf8.encodeSystem "[true]")),
      ([Utf8.encodeSystem "c", Utf8.encodeSystem "mixed"], .directory),
      ([inputsName, Utf8.encodeSystem "c", Utf8.encodeSystem "mixed"],
        .file (Utf8.encodeSystem "[7]"))]
  workingDirectory := []
  distinct := by decide
  valid := by decide

/-- The cases of `golden` are updated at once, also in the opposite order; of the cases of `mixed` only
the first is. -/
theorem twoRoots_update_at_once :
    ((rebuildAll twoRoots (Path.ofText "golden") "golden" "main" none).2.result = .ok ["a", "b"] ∧
      ∃ fs', rebuildEach "main" twoRoots [Path.ofText "golden/b", Path.ofText "golden/a"] = .ok fs' ∧
        Same (rebuildAll twoRoots (Path.ofText "golden") "golden" "main" none).1 fs') ∧
    (rebuildAll twoRoots (Path.ofText "mixed") "mixed" "main" none).2 =
        ⟨Text.lines [rebuiltLine (Path.ofText "mixed/a")],
          .error (.inputsNotIntegers "mixed/b/inputs.json")⟩ ∧
      Updated "main" [Path.ofText "mixed/a"] twoRoots
        (rebuildAll twoRoots (Path.ofText "mixed") "mixed" "main" none).1 := by
  have hgolden : selectCases twoRoots (Path.ofText "golden") "golden" none =
      .ok [Path.ofText "golden/a", Path.ofText "golden/b"] := by decide
  have hmixed : selectCases twoRoots (Path.ofText "mixed") "mixed" none =
      .ok [Path.ofText "mixed/a", Path.ofText "mixed/b", Path.ofText "mixed/c"] := by decide
  obtain ⟨hall, -⟩ := @rebuildAll_updates_at_once _ _ _ "main" _ _ hgolden (by decide)
  obtain ⟨-, hprefix⟩ := @rebuildAll_updates_at_once _ _ _ "main" _ _ hmixed (by decide)
  obtain ⟨hdone, -, horder⟩ := hall (by decide +kernel)
  refine ⟨⟨by rw [hdone]; rfl, horder _ (List.Perm.swap _ _ _)⟩, ?_⟩
  exact hprefix [Path.ofText "mixed/a"] (Path.ofText "mixed/b") [Path.ofText "mixed/c"] _ rfl
    (by decide +kernel) rfl

end Golden
end GoldenCheck
