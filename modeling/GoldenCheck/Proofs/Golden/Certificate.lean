import GoldenCheck.Proofs.Golden.Rebuild
import GoldenCheck.Proofs.Golden.Report

/-!
# What an expected file certifies

An expected file is the output of one name and one list of inputs, unless it is empty.  A case whose
inputs were exchanged after it was rebuilt, or that is run under another name, is found out.
-/

namespace GoldenCheck
namespace Golden

open Numeral (Short)

/-- The expected file that a rebuild leaves is loaded as the output, whatever is then written in the
place of the inputs. -/
theorem loadExpected_of_replaced {fs rebuilt replaced : FileSystem} {c : Path} {name t : Text}
    {content : Bytes} (hrebuild : rebuildCase fs c name = .ok (t, rebuilt))
    (hreplace : rebuilt.writeFile (c.child inputsFile) content = .ok replaced) :
    loadExpected replaced c = .ok (some t) := by
  have hkept := rebuildCase_kept hrebuild
  obtain ⟨l, written, hl, hrec, -, rfl⟩ := rebuildCase_eq_ok_iff.1 hrebuild
  obtain ⟨m, hm, hlocate, hdir, rfl⟩ := FileSystem.writeFile_eq_ok_iff.1 hreplace
  have hsame := FileSystem.put_sameDirectories hm hdir content
  have hlocated := ((hsame.locate_alike _).ok_iff l).2 (hkept.recording_iff.2 hrec).located
  obtain ⟨up, -, -, -, rfl, -⟩ := hrec.beside_inputs
  obtain ⟨up', -, -, rfl⟩ := inputsFile_plain.locate_child hlocate
  -- The two files have different names, whatever directories they are in.
  have hne : expectedName :: up ≠ Utf8.encodeSystem inputsFile :: up' :=
    fun he => absurd (List.cons.inj he).1 (by decide)
  refine loadExpected_of_file (output_plain hrec.rendered) hrec.encoded hlocated ?_
  rw [FileSystem.lookup?_put, if_neg hne, FileSystem.lookup?_put, if_pos rfl]

/-- An expected file certifies one registered name and one list of inputs: two outputs agree if both are
empty or both the names and the inputs agree, and a case passes after its inputs were replaced if
this holds of the name and the inputs that it was rebuilt with. -/
theorem expected_file_certifies :
    (∀ (name name' : Text) (entry entry' : EntryPoint) (xs ys : List Int),
      EntryPoint.ofName name = .ok entry → EntryPoint.ofName name' = .ok entry' →
      (∀ a ∈ xs, Short a) → (∀ a ∈ ys, Short a) →
      ∃ t t', render name entry (xs.map .int) = .ok t ∧ render name' entry' (ys.map .int) = .ok t' ∧
        (t = t' ↔ xs = [] ∧ ys = [] ∨ name = name' ∧ xs = ys)) ∧
    ∀ (fs rebuilt replaced : FileSystem) (c : Path) (name name' t : Text) (entry' : EntryPoint)
      (content : Bytes) (xs ys : List Int),
      loadInputs fs c = .ok xs → rebuildCase fs c name = .ok (t, rebuilt) →
      rebuilt.writeFile (c.child inputsFile) content = .ok replaced →
      loadInputs replaced c = .ok ys → EntryPoint.ofName name' = .ok entry' →
      ∃ r, runCase replaced c name' = .ok r ∧
        (r.passed = true ↔ xs = [] ∧ ys = [] ∨ name = name' ∧ xs = ys) := by
  constructor
  · intro name name' entry entry' xs ys hname hname' hxs hys
    exact ⟨_, _, render_ints hxs, render_ints hys, rendering_eq_iff hname hname' xs ys⟩
  · intro fs rebuilt replaced c name name' t entry' content xs ys hxs hrebuild hreplace hys hname'
    have hexpected := loadExpected_of_replaced hrebuild hreplace
    have houtput : output replaced c name' = .ok (rendering name' entry' ys) :=
      output_eq_ok_iff.2 ⟨entry', ys, hname', hys, rfl⟩
    refine ⟨_, runCase_eq_ok_iff.2 ⟨_, _, houtput, hexpected, rfl⟩, ?_⟩
    -- It passes if the output under the old name and inputs is that under the new ones.
    obtain ⟨_, _, _, hrec, -⟩ := rebuildCase_eq_ok_iff.1 hrebuild
    obtain ⟨entry, zs, hname, hzs, rfl⟩ := output_eq_ok_iff.1 hrec.rendered
    obtain rfl : xs = zs := Except.ok.inj (hxs.symm.trans hzs)
    rw [decide_eq_true_iff, Option.some.injEq]
    exact rendering_eq_iff hname hname' xs ys

/-- Two names of one function, and a case rebuilt under one of them whose input is then exchanged. -/
theorem main_expected_file_certifies :
    (∃ t t', render "main" .smallPrime [.int 2] = .ok t ∧
      render "is_small_prime" .smallPrime [.int 2] = .ok t' ∧ t ≠ t') ∧
    ∃ t rebuilt replaced r,
      rebuildCase oneCase (Path.ofText "golden/a") "main" = .ok (t, rebuilt) ∧
      rebuilt.writeFile (Path.ofText "golden/a/inputs.json") (Utf8.encodeSystem "[3]") =
        .ok replaced ∧
      loadInputs replaced (Path.ofText "golden/a") = .ok [3] ∧
      runCase replaced (Path.ofText "golden/a") "main" = .ok r ∧ r.passed ≠ true := by
  obtain ⟨hrender, hreplace⟩ := expected_file_certifies
  constructor
  · obtain ⟨t, t', ht, ht', heq⟩ :=
      hrender "main" "is_small_prime" .smallPrime .smallPrime [2] [2] rfl rfl (by decide) (by decide)
    exact ⟨t, t', ht, ht', fun h => absurd (heq.1 h) (by decide)⟩
  · obtain ⟨r, hr, hpassed⟩ := hreplace oneCase _ _ (Path.ofText "golden/a") "main" "main" _
      .smallPrime (Utf8.encodeSystem "[3]") [2] [3] rfl rfl rfl rfl rfl
    exact ⟨_, _, _, r, rfl, rfl, rfl, hr, fun h => absurd (hpassed.1 h) (by decide)⟩

end Golden
end GoldenCheck
