import GoldenCheck.Golden.Command
import GoldenCheck.Proofs.Golden.Rebuild

/-!
# The entry point of a request

A request names its entry point itself or leaves it to the environment and the configuration of its
root.  Rebuilding touches neither, so that a request keeps its entry point.
-/

namespace GoldenCheck
namespace Golden

/-! ## 1. The configuration of a root -/

/-- The fields of the configuration of a root, none if there is no configuration. -/
def Configured (fs : FileSystem) (root : Path) (config : Json.Fields) : Prop :=
  fs.present (root.child configFile) = .ok false ∧ config = [] ∨
    fs.present (root.child configFile) = .ok true ∧
      fs.readJson (root.child configFile) = .ok (.object config)

theorem loadConfig_eq_ok_iff {fs : FileSystem} {root : Path} {config : Json.Fields} :
    loadConfig fs root = .ok config ↔ Configured fs root config := by
  unfold loadConfig Configured
  cases hpresent : fs.present (root.child configFile) with
  | error f => simp
  | ok b =>
    cases b with
    | false => simp [eq_comm]
    | true =>
      cases hread : fs.readJson (root.child configFile) with
      | error f => simp
      | ok v => cases v <;> simp

/-! ## 2. The name that a request asks for -/

/-- The name that a request asks for: its own, or if that is absent or empty, the one that the
environment or the configuration gives. -/
def Request.Chooses (r : Request) (env : Environment) (fs : FileSystem) (name : Text) : Prop :=
  r.entry = some name ∧ name ≠ [] ∨
    (r.entry = none ∨ r.entry = some []) ∧
      ∃ config, Configured fs (r.root env) config ∧ entryValue env config = .string name

theorem ofValue_eq_ok_iff {v : Json.Value} {name : Text} {entry : EntryPoint} :
    EntryPoint.ofValue v = .ok (name, entry) ↔
      v = .string name ∧ EntryPoint.ofName name = .ok entry := by
  constructor
  · intro h
    unfold EntryPoint.ofValue at h
    split at h
    next t =>
      split at h
      next e he => cases h; exact ⟨rfl, he⟩
      next => contradiction
    next => split at h <;> contradiction
  · rintro ⟨rfl, he⟩
    simp only [EntryPoint.ofValue, he]

theorem entryName_eq_ok_iff {r : Request} {env : Environment} {fs : FileSystem} {name : Text} :
    r.entryName env fs = .ok name ↔
      r.Chooses env fs name ∧ ∃ entry, EntryPoint.ofName name = .ok entry := by
  have hgiven : (loadConfig fs (r.root env) >>= fun config =>
      (EntryPoint.ofValue (entryValue env config)).map Prod.fst) = .ok name ↔
      (∃ config, Configured fs (r.root env) config ∧ entryValue env config = .string name) ∧
        ∃ entry, EntryPoint.ofName name = .ok entry := by
    simp only [bind_eq_ok_iff, loadConfig_eq_ok_iff, map_eq_ok_iff, Prod.exists, ofValue_eq_ok_iff]
    constructor
    · rintro ⟨config, hconfig, t, entry, ⟨hvalue, hentry⟩, rfl⟩
      exact ⟨⟨config, hconfig, hvalue⟩, entry, hentry⟩
    · rintro ⟨⟨config, hconfig, hvalue⟩, entry, hentry⟩
      exact ⟨config, hconfig, name, entry, ⟨hvalue, hentry⟩, rfl⟩
  unfold Request.entryName Request.Chooses
  -- An empty name counts as none.
  match r.entry with
  | none => simpa [chosen?] using hgiven
  | some [] => simpa [chosen?] using hgiven
  | some (p :: t) =>
    simp only [chosen?, map_eq_ok_iff]
    constructor
    · rintro ⟨entry, hentry, rfl⟩
      exact ⟨.inl ⟨rfl, List.cons_ne_nil p t⟩, entry, hentry⟩
    · rintro ⟨⟨hname, -⟩ | ⟨hnone | hnone, -⟩, entry, hentry⟩
      · obtain rfl := Option.some.inj hname
        exact ⟨entry, hentry, rfl⟩
      · cases hnone
      · cases hnone

/-! ## 3. Rebuilding keeps it -/

theorem configFile_plain : FileSystem.PlainName configFile := ⟨by decide, by decide, by decide⟩

theorem Kept.configured_iff {before after : FileSystem} (h : Kept before after) (root : Path)
    (config : Json.Fields) : Configured after root config ↔ Configured before root config := by
  simp only [Configured, h.present_child configFile_plain (by decide),
    h.readJson_child configFile_plain (by decide)]

theorem Kept.entryName_iff {before after : FileSystem} (h : Kept before after) (r : Request)
    (env : Environment) (name : Text) :
    r.entryName env after = .ok name ↔ r.entryName env before = .ok name := by
  simp only [entryName_eq_ok_iff, Request.Chooses, h.configured_iff]

end Golden
end GoldenCheck
