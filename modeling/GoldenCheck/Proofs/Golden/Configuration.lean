import GoldenCheck.Proofs.Golden.EntryChoice
import GoldenCheck.Proofs.Json.RoundTrip

/-!
# A written configuration is loaded

The text of a value, written as the configuration of a root, is loaded as the fields of that value.
A name that was written more than once counts once, with the last of its values; a value that is no
object is refused.
-/

namespace GoldenCheck
namespace Golden

open Json (Writable Distinct)
open Json.Fields (LastWins)

/-! ## 1. Reading what was written -/

theorem present_of_readFile {fs : FileSystem} {p : Path} {content : Bytes}
    (h : fs.readFile p = .ok content) : fs.present p = .ok true := by
  obtain ⟨l, hl, hentry⟩ := FileSystem.readFile_eq_ok_iff.1 h
  rw [FileSystem.present_of_locate hl, hentry, Option.isSome_some]

/-- A written text has no CR, so that it is read as it is. -/
theorem readText_of_readFile {fs : FileSystem} {p : Path} {cs : List Char}
    (h : fs.readFile p = .ok (Utf8.encodeChars cs)) (hreturn : '\r' ∉ cs) :
    fs.readText p = .ok cs :=
  FileSystem.readText_eq_ok_iff.2
    ⟨_, cs, h, Utf8.decode_encodeChars cs, (unifyLineEndings_eq_self hreturn).symm⟩

section Written

variable {fs fs' : FileSystem} {root : Path} {v : Json.Value}

theorem readJson_written {p : Path} {d : Nat} (hv : Writable d v) (hd : d ≤ Json.nestingLimit)
    (h : fs.writeFile p (Utf8.encodeChars v.toJson) = .ok fs') :
    fs'.readJson p = .ok v.settled := by
  have hreturn : '\r' ∉ v.toJson := fun hmem => absurd (hv.spaceToTilde _ hmem) (by decide)
  apply FileSystem.readJson_eq_ok_iff.2
  exact ⟨v.toJson, readText_of_readFile (FileSystem.readFile_of_writeFile h) hreturn,
    hv.read_toJson hd⟩

/-! ## 2. Loading what was written -/

theorem loadConfig_object {config : Json.Fields}
    (hpresent : fs.present (root.child configFile) = .ok true)
    (hread : fs.readJson (root.child configFile) = .ok (.object config)) :
    loadConfig fs root = .ok config :=
  loadConfig_eq_ok_iff.2 (.inr ⟨hpresent, hread⟩)

theorem loadConfig_not_object (hpresent : fs.present (root.child configFile) = .ok true)
    (hread : fs.readJson (root.child configFile) = .ok v) (hv : ∀ fields, v ≠ .object fields) :
    loadConfig fs root = .error (.configNotObject (root.child configFile).toText) := by
  rw [loadConfig, hpresent, hread]
  cases v with
  | object fields => exact absurd rfl (hv fields)
  | null | bool | int | float | string | array => rfl

end Written

/-- The text of a value in which at most 500 arrays and objects are around one another inside the
outermost one is ASCII from the space to the tilde.  Written as the configuration of a root, the
text of an object is loaded as fields in which each name stands once, at the place where it first
came, with the value with which it came last, and the same holds inside that value; values in which
no name comes twice are loaded as they are.  A value that is no object is refused by name. -/
theorem written_config_is_loaded {fs fs' : FileSystem} {root : Path} {v : Json.Value}
    (hv : Writable 501 v)
    (hwrite : fs.writeFile (root.child configFile) (Utf8.encodeChars v.toJson) = .ok fs') :
    (∀ c ∈ v.toJson, ' ' ≤ c ∧ c ≤ '~') ∧
      (∀ pairs, v = .object pairs →
        ∃ config, loadConfig fs' root = .ok config ∧
          LastWins (pairs.map fun p => (p.1, p.2.settled)) config ∧
          ((∀ p ∈ pairs, Distinct p.2) → LastWins pairs config)) ∧
      ((∀ pairs, v ≠ .object pairs) →
        ∃ fault, loadConfig fs' root = .error fault ∧
          fault = .configNotObject (root.child configFile).toText ∧
          fault.message =
            "Golden config must be a JSON object: " ++ (root.child configFile).toText) := by
  have hpresent := present_of_readFile (FileSystem.readFile_of_writeFile hwrite)
  have hread := readJson_written hv (by decide) hwrite
  refine ⟨hv.spaceToTilde, ?_, ?_⟩
  · rintro pairs rfl
    obtain ⟨config, hsettled, hlast⟩ := Json.settled_object pairs
    refine ⟨config, loadConfig_object hpresent (hsettled ▸ hread), hlast, fun hdistinct => ?_⟩
    have hsame : pairs.map (fun p => (p.1, p.2.settled)) = pairs.map id :=
      List.map_congr_left fun p hp => Prod.ext rfl (hdistinct p hp).settled_eq
    rwa [hsame, List.map_id] at hlast
  · intro hnone
    exact ⟨_, loadConfig_not_object hpresent hread (Json.settled_ne_object hnone), rfl, rfl⟩

/-! ## 3. A configuration with repeated names -/

theorem oneCase_takes_config (content : Bytes) :
    ∃ fs', oneCase.writeFile ((Path.ofText "golden").child configFile) content = .ok fs' := by
  refine ⟨_, FileSystem.writeFile_eq_ok_iff.2
    ⟨[Utf8.encodeSystem "config.json", Utf8.encodeSystem "golden"], ?_, ?_, ?_, rfl⟩⟩
  · decide
  · decide +kernel
  · decide +kernel

/-- A name that comes twice, outside and inside, and strings with a pair's character and lone
halves. -/
def repeatedNames : List (Text × Json.Value) :=
  [("k", .int 1),
    ([.char '😀', .surrogate 0], .string [.surrogate 0x400, .surrogate 0, .char '\n', .char 'é']),
    ("k", .object [("x", .null), ("x", .array [.bool true, .int (-7)])])]

theorem repeatedNames_writable : Writable 501 (.object repeatedNames) := by
  have inner : Writable 500 (.object [("x", .null), ("x", .array [.bool true, .int (-7)])]) := by
    apply Writable.object (by decide)
    simp only [List.forall_mem_cons]
    refine ⟨.null, .array ?_, List.forall_mem_nil _⟩
    simp only [List.forall_mem_cons]
    exact ⟨.bool true, .int (by decide), List.forall_mem_nil _⟩
  apply Writable.object (by decide)
  simp only [repeatedNames, List.forall_mem_cons]
  exact ⟨.int (by decide), .string (by decide), inner, List.forall_mem_nil _⟩

/-- The pairs are loaded with each name once, and a list of the first value is refused. -/
theorem repeatedNames_config_is_loaded :
    (Json.Value.object repeatedNames).toJson =
        ("\x7b\"k\": 1, \"\\ud83d\\ude00\\ud800\": \"\\udc00\\ud800\\n\\u00e9\", " ++
          "\"k\": \x7b\"x\": null, \"x\": [true, -7]\x7d\x7d").toList ∧
      Writable 501 (.object repeatedNames) ∧
      (∃ fs' config, oneCase.writeFile ((Path.ofText "golden").child configFile)
            (Utf8.encodeChars (Json.Value.object repeatedNames).toJson) = .ok fs' ∧
          loadConfig fs' (Path.ofText "golden") = .ok config ∧
          config.map Prod.fst = (["k", [.char '😀', .surrogate 0]] : List Text)) ∧
      Writable 501 (.array [.int 1]) ∧
      ∃ fs' fault, oneCase.writeFile ((Path.ofText "golden").child configFile)
            (Utf8.encodeChars (Json.Value.array [.int 1]).toJson) = .ok fs' ∧
          loadConfig fs' (Path.ofText "golden") = .error fault ∧
          fault.message = "Golden config must be a JSON object: golden/config.json" := by
  have hlist : Writable 501 (.array [.int 1]) := by
    apply Writable.array
    simp only [List.forall_mem_cons]
    exact ⟨.int (by decide), List.forall_mem_nil _⟩
  obtain ⟨fs', hwrite⟩ :=
    oneCase_takes_config (Utf8.encodeChars (Json.Value.object repeatedNames).toJson)
  obtain ⟨fs'', hwrite'⟩ :=
    oneCase_takes_config (Utf8.encodeChars (Json.Value.array [.int 1]).toJson)
  obtain ⟨config, hload, hlast, -⟩ :=
    (written_config_is_loaded repeatedNames_writable hwrite).2.1 repeatedNames rfl
  obtain ⟨fault, hrefused, -, hmessage⟩ := (written_config_is_loaded hlist hwrite').2.2 (by simp)
  refine ⟨by decide +kernel, repeatedNames_writable, ⟨fs', config, hwrite, hload, ?_⟩, hlist,
    fs'', fault, hwrite', hrefused, ?_⟩
  · rw [hlast.names]
    decide +kernel
  · rw [hmessage]
    decide +kernel

end Golden
end GoldenCheck
