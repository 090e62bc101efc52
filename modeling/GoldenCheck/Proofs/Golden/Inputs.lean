import GoldenCheck.Proofs.Golden.Rebuild
import GoldenCheck.Proofs.Json.IntegerList
import GoldenCheck.Proofs.Text.Decoding
import GoldenCheck.Proofs.Text.LineEnding

/-!
# Which files are inputs

The inputs of a case load exactly if the bytes of the file are, in ASCII, a list of integers by the
grammar.  Decoding, the unification of line endings and the reader of values each refuse or change
something, but none of them touches such a list, and together they leave nothing else.
-/

namespace GoldenCheck

/-! ## 1. Line endings in a list -/

namespace Json

theorem blank_unifyLineEndings {s : List Char} : Blank (unifyLineEndings s) ↔ Blank s := by
  fun_induction unifyLineEndings s with
  | case1 => exact Iff.rfl
  | case2 s ih => simpa [Blank] using ih
  | case3 c s _ ih =>
    have hcons : ∀ (d : Char) (t : List Char),
        Blank (d :: t) ↔ (d = ' ' ∨ d = '\t' ∨ d = '\n' ∨ d = '\r') ∧ Blank t :=
      fun d t => List.forall_mem_cons
    rw [hcons, hcons, ih]
    by_cases hc : c = '\r' <;> simp [hc]

theorem IntegerText.mem {t : List Char} {n : Int} (h : IntegerText t n) :
    ∀ c ∈ t, c = '-' ∨ c.isDigit = true := by
  have hwhole : ∀ {ds : List Char}, WholeText ds → ∀ c ∈ ds, c.isDigit = true := by
    intro ds hds
    cases hds with
    | zero => exact List.forall_mem_cons.2 ⟨rfl, nofun⟩
    | digits hc _ hrest => exact List.forall_mem_cons.2 ⟨hc, hrest⟩
  cases h with
  | plain hds _ => exact fun c hc => .inr (hwhole hds c hc)
  | negative hds _ => exact List.forall_mem_cons.2 ⟨.inl rfl, fun c hc => .inr (hwhole hds c hc)⟩

theorem IntegerText.solid {t : List Char} {n : Int} (h : IntegerText t n) : Solid t := by
  obtain ⟨c, rest, hne, -⟩ := h.head
  exact ⟨by simp [hne], fun hm => absurd (h.mem _ hm) (by decide),
    fun hm => absurd (h.mem _ hm) (by decide)⟩

theorem solid_singleton {c : Char} (hfeed : c ≠ '\n') (hreturn : c ≠ '\r') : Solid [c] :=
  ⟨by simp, by simpa using Ne.symm hfeed, by simpa using Ne.symm hreturn⟩

theorem itemsText_of_unified {s : List Char} {xs : List Int} (h : ItemsText IntegerText s xs)
    {cs : List Char} (hcs : unifyLineEndings cs = s) : ItemsText IntegerText cs xs := by
  induction h generalizing cs with
  | last hb ht ha =>
    rw [List.append_assoc] at hcs
    obtain ⟨b', a', rfl, rfl, rfl⟩ := ht.solid.cut_iff.1 hcs
    rw [← List.append_assoc]
    exact .last (blank_unifyLineEndings.1 hb) ht (blank_unifyLineEndings.1 ha)
  | next hb ht ha _ ih =>
    simp only [List.append_assoc] at hcs
    obtain ⟨b', u, rfl, rfl, hu⟩ := ht.solid.cut_iff.1 hcs
    have hcomma : Solid [','] := solid_singleton (by decide) (by decide)
    obtain ⟨a', rest', rfl, rfl, hrest⟩ := hcomma.cut_iff.1 hu
    have hitems :=
      ItemsText.next (blank_unifyLineEndings.1 hb) ht (blank_unifyLineEndings.1 ha) (ih hrest)
    simpa using hitems

theorem ItemsText.unified {cs : List Char} {xs : List Int} (h : ItemsText IntegerText cs xs) :
    ItemsText IntegerText (unifyLineEndings cs) xs := by
  induction h with
  | last hb ht ha =>
    rw [List.append_assoc, ht.solid.cut_iff.2 ⟨_, _, rfl, rfl, rfl⟩, ← List.append_assoc]
    exact .last (blank_unifyLineEndings.2 hb) ht (blank_unifyLineEndings.2 ha)
  | @next b t a rest x xs hb ht ha _ ih =>
    have hcomma : Solid [','] := solid_singleton (by decide) (by decide)
    have htail : unifyLineEndings (a ++ ',' :: rest) = _ :=
      hcomma.cut_iff.2 ⟨a, rest, rfl, rfl, rfl⟩
    rw [List.append_assoc, List.append_assoc, ht.solid.cut_iff.2 ⟨_, _, rfl, rfl, rfl⟩, htail]
    have hitems := ItemsText.next (blank_unifyLineEndings.2 hb) ht (blank_unifyLineEndings.2 ha) ih
    simpa using hitems

/-- A text is a list of integers if it is one with its line endings unified. -/
theorem listText_unifyLineEndings {cs : List Char} {xs : List Int} :
    ListText IntegerText (unifyLineEndings cs) xs ↔ ListText IntegerText cs xs := by
  have hopen : Solid ['['] := solid_singleton (by decide) (by decide)
  have hclose : Solid [']'] := solid_singleton (by decide) (by decide)
  rw [listText_iff, listText_iff]
  constructor
  · rintro ⟨b, m, a, hb, hm, ha, hcs⟩
    -- Cut at the brackets; what is between them is blank or the items.
    obtain ⟨b', u, rfl, rfl, hu⟩ := hopen.cut_iff.1 hcs
    obtain ⟨m', a', rfl, rfl, rfl⟩ := hclose.cut_iff.1 hu
    refine ⟨b', m', a', blank_unifyLineEndings.1 hb, ?_, blank_unifyLineEndings.1 ha, rfl⟩
    exact hm.imp (And.imp_left blank_unifyLineEndings.1) fun h => itemsText_of_unified h rfl
  · rintro ⟨b, m, a, hb, hm, ha, rfl⟩
    refine ⟨unifyLineEndings b, unifyLineEndings m, unifyLineEndings a, blank_unifyLineEndings.2 hb,
      hm.imp (And.imp_left blank_unifyLineEndings.2) ItemsText.unified,
      blank_unifyLineEndings.2 ha, ?_⟩
    exact hopen.cut_iff.2 ⟨b, _, rfl, rfl, hclose.cut_iff.2 ⟨m, a, rfl, rfl, rfl⟩⟩

/-! ## 2. ASCII -/

/-- The characters that have one byte each. -/
def Ascii (s : List Char) : Prop := ∀ c ∈ s, c.toNat < 0x80

theorem Ascii.append {s t : List Char} (hs : Ascii s) (ht : Ascii t) : Ascii (s ++ t) :=
  fun c hc => (List.mem_append.1 hc).elim (hs c) (ht c)

theorem Ascii.cons {c : Char} {s : List Char} (hc : c.toNat < 0x80) (hs : Ascii s) :
    Ascii (c :: s) :=
  List.forall_mem_cons.2 ⟨hc, hs⟩

theorem Blank.ascii {s : List Char} (h : Blank s) : Ascii s := by
  intro c hc
  rcases h c hc with rfl | rfl | rfl | rfl <;> decide

theorem IntegerText.ascii {t : List Char} {n : Int} (h : IntegerText t n) : Ascii t := by
  intro c hc
  rcases h.mem c hc with rfl | hdigit
  · decide
  · simp only [Char.isDigit, Bool.and_eq_true, decide_eq_true_eq] at hdigit
    have hhi : c.toNat ≤ 57 := hdigit.2
    omega

theorem ItemsText.ascii {s : List Char} {xs : List Int} (h : ItemsText IntegerText s xs) :
    Ascii s := by
  induction h with
  | last hb ht ha => exact (hb.ascii.append ht.ascii).append ha.ascii
  | next hb ht ha _ ih =>
    exact ((hb.ascii.append ht.ascii).append ha.ascii).append (ih.cons (by decide))

theorem ListText.ascii {s : List Char} {xs : List Int} (h : ListText IntegerText s xs) :
    Ascii s := by
  obtain ⟨b, m, a, hb, hm, ha, rfl⟩ := listText_iff.1 h
  have hm : Ascii m := hm.elim (fun h => h.1.ascii) ItemsText.ascii
  exact hb.ascii.append ((hm.append (ha.ascii.cons (by decide))).cons (by decide))

theorem Ascii.encodeChars {s : List Char} (h : Ascii s) :
    Utf8.encodeChars s = s.map Char.toUInt8 := by
  have hchar : ∀ c ∈ s, String.utf8EncodeChar c = [c.toUInt8] := by
    intro c hc
    have hlt : c.val.toNat < 0x80 := h c hc
    unfold String.utf8EncodeChar
    rw [if_pos (by omega)]
    rfl
  rw [Utf8.encodeChars, List.flatMap_def, List.map_congr_left hchar, ← List.flatMap_def,
    List.map_eq_flatMap]

end Json

/-! ## 3. Inputs -/

namespace Golden

open Json (ListText IntegerText)

/-- A file is read as inputs exactly if it is, byte for byte, a list of integers by the grammar. -/
theorem loadInputs_of_content {fs : FileSystem} {case : Path} {content : Bytes}
    (h : fs.readFile (case.child inputsFile) = .ok content) (xs : List Int) :
    loadInputs fs case = .ok xs ↔
      ∃ cs, ListText IntegerText cs xs ∧ content = cs.map Char.toUInt8 := by
  rw [loadInputs_eq_ok_iff, FileSystem.readJson_eq_ok_iff]
  simp only [FileSystem.readText_eq_ok_iff, h, Except.ok.injEq, Utf8.decode_eq_ok_iff,
    Json.read_eq_ints_iff]
  constructor
  · rintro ⟨_, ⟨_, cs, rfl, hcs, rfl⟩, hlist⟩
    have hlist := Json.listText_unifyLineEndings.1 hlist
    exact ⟨cs, hlist, hcs.trans hlist.ascii.encodeChars⟩
  · rintro ⟨cs, hlist, hcs⟩
    exact ⟨_, ⟨_, cs, rfl, hcs.trans hlist.ascii.encodeChars.symm, rfl⟩,
      Json.listText_unifyLineEndings.2 hlist⟩

/-- Inputs load exactly if the file is a list of integers by the grammar, as the integers that it
denotes; every other file is refused; and a list of integers that are not too long, written with any
blanks, is read back. -/
theorem inputs_follow_grammar {fs : FileSystem} {case : Path} {content : Bytes}
    (h : fs.readFile (case.child inputsFile) = .ok content) :
    (∀ xs, loadInputs fs case = .ok xs ↔
      ∃ cs, ListText IntegerText cs xs ∧ content = cs.map Char.toUInt8) ∧
    ((¬ ∃ xs cs, ListText IntegerText cs xs ∧ content = cs.map Char.toUInt8) →
      ∃ f, loadInputs fs case = .error f) ∧
    ∀ xs cs, (∀ a ∈ xs, Numeral.Short a) → ListText (fun t a => t = Numeral.ofInt a) cs xs →
      content = cs.map Char.toUInt8 → loadInputs fs case = .ok xs := by
  have hiff := loadInputs_of_content h
  refine ⟨hiff, fun hnone => ?_, fun xs cs hshort hlist hcs => ?_⟩
  · cases hload : loadInputs fs case with
    | error f => exact ⟨f, rfl⟩
    | ok xs =>
      obtain ⟨cs, hcs⟩ := (hiff xs).1 hload
      exact absurd ⟨xs, cs, hcs⟩ hnone
  · refine (hiff xs).2 ⟨cs, hlist.mono fun t a ha ht => ?_, hcs⟩
    rw [ht]
    exact Json.integerText_ofInt (hshort a ha)

/-- The file system `oneCase` with three inputs, one of them negative, and blanks of all four
kinds. -/
def spacedInputs : FileSystem :=
  oneCase.put (inputsName :: onlyCase)
    (.file (Utf8.encodeSystem "\t[ 2 ,\r\n-30,\n\t 4\r]\n")) (by decide)

theorem spacedInputs_follow_grammar :
    spacedInputs.readFile (Path.ofText "golden/a/inputs.json") =
        .ok ("\t[ 2 ,\r\n-30,\n\t 4\r]\n".toList.map Char.toUInt8) ∧
      ListText (fun t a => t = Numeral.ofInt a) "\t[ 2 ,\r\n-30,\n\t 4\r]\n".toList [2, -30, 4] ∧
      loadInputs spacedInputs (Path.ofText "golden/a") = .ok [2, -30, 4] := by
  have hcontent : spacedInputs.readFile ((Path.ofText "golden/a").child inputsFile) =
      .ok ("\t[ 2 ,\r\n-30,\n\t 4\r]\n".toList.map Char.toUInt8) := by decide +kernel
  have hblank : ∀ b ∈ [[], ['\t'], [' '], ['\n'], ['\r'], ['\r', '\n'], ['\n', '\t', ' ']],
      Json.Blank b := by simp [Json.Blank]
  -- The list is built from its end.
  have hthird : Json.ItemsText (fun t a => t = Numeral.ofInt a) _ [4] :=
    .last (hblank ['\n', '\t', ' '] (by simp)) (rfl : ['4'] = _) (hblank ['\r'] (by simp))
  have hsecond : Json.ItemsText (fun t a => t = Numeral.ofInt a) _ [-30, 4] :=
    .next (hblank ['\r', '\n'] (by simp)) (rfl : ['-', '3', '0'] = _) (hblank [] (by simp)) hthird
  have hfirst : Json.ItemsText (fun t a => t = Numeral.ofInt a) _ [2, -30, 4] :=
    .next (hblank [' '] (by simp)) (rfl : ['2'] = _) (hblank [' '] (by simp)) hsecond
  have hlist : ListText (fun t a => t = Numeral.ofInt a) "\t[ 2 ,\r\n-30,\n\t 4\r]\n".toList
      [2, -30, 4] := .items (hblank ['\t'] (by simp)) hfirst (hblank ['\n'] (by simp))
  obtain ⟨-, -, hback⟩ := inputs_follow_grammar hcontent
  exact ⟨hcontent, hlist, hback _ _ (by decide +kernel) hlist rfl⟩

end Golden
end GoldenCheck
