import GoldenCheck.Golden.Config
import GoldenCheck.Proofs.Outcome
import GoldenCheck.Proofs.Storage.Writing
import GoldenCheck.Proofs.Text.Decoding
import GoldenCheck.Proofs.Text.LineEnding

/-!
# Other spellings of line endings

A line feed can also be written as CR LF or as CR.  Reading a text unifies the three, so that a text
without CR comes back from each of its spellings, and a file system whose files are spelled in another
way answers every question about a path in the same way.
-/

namespace GoldenCheck

/-! ## 1. Spellings of a text -/

inductive LineEnding where
  | lf
  | crlf
  | cr
deriving DecidableEq

namespace LineEnding

def chars : LineEnding → List Char
  | .lf => ['\n']
  | .crlf => ['\r', '\n']
  | .cr => ['\r']

def bytes : LineEnding → Bytes
  | .lf => [0x0A]
  | .crlf => [0x0D, 0x0A]
  | .cr => [0x0D]

/-- A text with every LF replaced. -/
def spell (e : LineEnding) (s : List Char) : List Char :=
  s.flatMap fun c => if c = '\n' then e.chars else [c]

/-- The content of a file with every LF replaced. -/
def spellBytes (e : LineEnding) (content : Bytes) : Bytes :=
  content.flatMap fun b => if b = 0x0A then e.bytes else [b]

theorem spell_feed (e : LineEnding) (s : List Char) : e.spell ('\n' :: s) = e.chars ++ e.spell s := rfl

theorem spell_cons (e : LineEnding) {c : Char} (hc : c ≠ '\n') (s : List Char) :
    e.spell (c :: s) = c :: e.spell s := by
  rw [spell, List.flatMap_cons, if_neg hc]
  rfl

theorem feed_not_mem_spell_cr (s : List Char) : '\n' ∉ LineEnding.cr.spell s := by
  intro hmem
  obtain ⟨c, -, hc⟩ := List.mem_flatMap.1 hmem
  split at hc
  next => exact absurd hc (by decide)
  next hne => exact hne (List.mem_singleton.1 hc).symm

/-- Every spelling of a text without CR is read as the text. -/
theorem unifyLineEndings_spell (e : LineEnding) {s : List Char} (h : '\r' ∉ s) :
    unifyLineEndings (e.spell s) = s := by
  induction s with
  | nil => rfl
  | cons c s ih =>
    rw [List.mem_cons, not_or] at h
    have hrest := ih h.2
    by_cases hc : c = '\n'
    · rw [hc, spell_feed]
      cases e with
      | lf =>
        change unifyLineEndings ('\n' :: LineEnding.lf.spell s) = _
        rw [unifyLineEndings_cons (by decide), hrest]
      | crlf =>
        change '\n' :: unifyLineEndings (LineEnding.crlf.spell s) = _
        rw [hrest]
      | cr =>
        -- The CR stays alone, since no LF is left to follow it.
        have halone : (LineEnding.cr.spell s).head? ≠ some '\n' :=
          fun hhead => feed_not_mem_spell_cr s (List.mem_of_mem_head? hhead)
        change unifyLineEndings ('\r' :: LineEnding.cr.spell s) = _
        rw [unifyLineEndings_first fun _ => halone, if_pos rfl, hrest]
    · rw [spell_cons e hc, unifyLineEndings_cons (Ne.symm h.1), hrest]

/-! ## 2. Spellings of a content -/

/-- A byte below 0x80 is a character by itself and no part of another. -/
theorem toNat_eq_of_mem_encodeChar {c : Char} {b : UInt8} (hb : b ∈ String.utf8EncodeChar c)
    (hlt : b.toNat < 0x80) : c.toNat = b.toNat := by
  -- All bytes of the longer sequences have their highest bit set.
  have hhigh : ∀ x, 0x80 ≤ x → x < 0x100 → ¬ (UInt8.ofNat x).toNat < 0x80 := by
    intro x hlo hhi
    rw [UInt8.toNat_ofNat']
    omega
  unfold String.utf8EncodeChar at hb
  simp only [show c.val.toNat = c.toNat from rfl] at hb
  split at hb
  next hone =>
    rw [List.mem_singleton.1 hb, UInt8.toNat_ofNat']
    omega
  next =>
    exfalso
    repeat' split at hb
    all_goals
      simp only [List.mem_cons, List.not_mem_nil, or_false] at hb
      rcases hb with rfl | rfl | rfl | rfl <;> exact hhigh _ (by omega) (by omega) hlt

theorem spellBytes_append (e : LineEnding) (s t : Bytes) :
    e.spellBytes (s ++ t) = e.spellBytes s ++ e.spellBytes t :=
  List.flatMap_append

theorem spellBytes_eq_self {e : LineEnding} {s : Bytes} (h : e = .lf ∨ 0x0A ∉ s) :
    e.spellBytes s = s := by
  have hsame : ∀ b ∈ s, (if b = 0x0A then e.bytes else [b]) = [b] := by
    intro b hb
    split
    next hfeed =>
      rw [hfeed] at hb ⊢
      rw [h.resolve_right fun hno => hno hb]
      rfl
    next => rfl
  rw [spellBytes, List.flatMap_def, List.map_congr_left hsame, ← List.flatMap_def,
    List.flatMap_singleton']

theorem spellBytes_encodeChars (e : LineEnding) (s : List Char) :
    e.spellBytes (Utf8.encodeChars s) = Utf8.encodeChars (e.spell s) := by
  induction s with
  | nil => rfl
  | cons c s ih =>
    change e.spellBytes (String.utf8EncodeChar c ++ Utf8.encodeChars s) = _
    rw [spellBytes_append, ih]
    by_cases hc : c = '\n'
    · rw [hc, spell_feed, Utf8.encodeChars, Utf8.encodeChars, List.flatMap_append]
      cases e <;> rfl
    · have hfeed : 0x0A ∉ String.utf8EncodeChar c := by
        intro hmem
        have hten : c.toNat = '\n'.toNat := toNat_eq_of_mem_encodeChar hmem (by decide)
        exact hc (Char.toNat_inj.1 hten)
      rw [spellBytes_eq_self (.inr hfeed), spell_cons e hc]
      rfl

/-- Respelling a content that has no CR does not change what is read, if the content is text. -/
theorem decode_spellBytes (e : LineEnding) {content : Bytes} {s : List Char} (hcr : 0x0D ∉ content)
    (hs : Utf8.decode content = .ok s) :
    ∃ s', Utf8.decode (e.spellBytes content) = .ok s' ∧ unifyLineEndings s' = unifyLineEndings s := by
  obtain rfl := Utf8.decode_eq_ok_iff.1 hs
  have hreturn : '\r' ∉ s := fun hmem => hcr (List.mem_flatMap.2 ⟨'\r', hmem, by decide⟩)
  refine ⟨e.spell s, ?_, ?_⟩
  · rw [spellBytes_encodeChars, Utf8.decode_encodeChars]
  · rw [unifyLineEndings_spell e hreturn, unifyLineEndings_eq_self hreturn]

end LineEnding

/-! ## 3. Spellings of the files of a file system -/

def Entry.respell (e : LineEnding) : Entry → Entry
  | .directory => .directory
  | .file content => .file (e.spellBytes content)

/-- A file without CR, which holds text if it is spelled anew. -/
def Entry.Respellable (e : LineEnding) : Entry → Prop
  | .directory => True
  | .file content => 0x0D ∉ content ∧ (e ≠ .lf → ∃ s, Utf8.decode content = .ok s)

instance (e : LineEnding) (x : Entry) : Decidable (x.Respellable e) :=
  match x with
  | .directory => .isTrue trivial
  | .file content =>
    inferInstanceAs (Decidable (0x0D ∉ content ∧ (e ≠ .lf → ∃ s, Utf8.decode content = .ok s)))

namespace FileSystem

/-- The file system with the line endings of each file spelled as its location asks for. -/
def respell (fs : FileSystem) (spelling : Location → LineEnding) : FileSystem where
  entries := fs.entries.map fun x => (x.1, x.2.respell (spelling x.1))
  workingDirectory := fs.workingDirectory
  distinct := by
    rw [List.map_map]
    exact fs.distinct
  valid x hx := by
    obtain ⟨y, hy, rfl⟩ := List.mem_map.1 hx
    exact fs.valid y hy

/-- No file holds a CR, and those that are spelled anew hold text. -/
def Respellable (fs : FileSystem) (spelling : Location → LineEnding) : Prop :=
  ∀ x ∈ fs.entries, x.2.Respellable (spelling x.1)

instance (fs : FileSystem) (spelling : Location → LineEnding) : Decidable (fs.Respellable spelling) :=
  inferInstanceAs (Decidable (∀ x ∈ fs.entries, x.2.Respellable (spelling x.1)))

section
variable (fs : FileSystem) (spelling : Location → LineEnding)

theorem find?_respell (l : Location) (xs : List (Location × Entry)) :
    find? l (xs.map fun x => (x.1, x.2.respell (spelling x.1))) =
      (find? l xs).map (Entry.respell (spelling l)) := by
  induction xs with
  | nil => rfl
  | cons x xs ih =>
    simp only [List.map_cons, find?]
    split
    next hx => rw [hx]; rfl
    next => exact ih

theorem lookup?_respell (l : Location) :
    (fs.respell spelling).lookup? l = (fs.lookup? l).map (Entry.respell (spelling l)) := by
  unfold lookup?
  split
  · rfl
  · exact find?_respell spelling l fs.entries

theorem enter_respell (l : Location) (n : FileName) :
    (fs.respell spelling).enter l n = fs.enter l n := by
  unfold enter
  rw [lookup?_respell]
  cases fs.lookup? l with
  | none => rfl
  | some x => cases x <;> rfl

theorem walk_respell (l : Location) (ns : List FileName) :
    (fs.respell spelling).walk l ns = fs.walk l ns := by
  induction ns generalizing l with
  | nil => rfl
  | cons n ns ih => simp only [walk, enter_respell, ih]

theorem locate_respell (p : Path) : (fs.respell spelling).locate p = fs.locate p := by
  simp only [locate, walk_respell]
  rfl

/-- A question that does not look into files has the same answer. -/
theorem holds_respell {test : Entry → Bool} (htest : ∀ e x, test (Entry.respell e x) = test x)
    (p : Path) : (fs.respell spelling).holds test p = fs.holds test p := by
  cases hl : fs.locate p with
  | error r => rw [holds_of_locate_error hl, holds_of_locate_error ((locate_respell ..).trans hl)]
  | ok l =>
    rw [holds_of_locate hl, holds_of_locate ((locate_respell ..).trans hl), lookup?_respell]
    cases fs.lookup? l with
    | none => rfl
    | some x => simp only [Option.map_some, Option.any_some, htest]

theorem present_respell (p : Path) : (fs.respell spelling).present p = fs.present p := by
  have hexists : (fs.respell spelling).exists? p = fs.exists? p :=
    holds_respell fs spelling (fun _ _ => rfl) p
  rw [present, present, hexists]

theorem isFolder_respell (p : Path) : (fs.respell spelling).isFolder p = fs.isFolder p := by
  have hdirectory : (fs.respell spelling).isDirectory? p = fs.isDirectory? p := by
    refine holds_respell fs spelling (fun e x => ?_) p
    cases x <;> simp [Entry.respell]
  rw [isFolder, isFolder, hdirectory]

theorem namesIn_respell (l : Location) : (fs.respell spelling).namesIn l = fs.namesIn l := by
  -- A listing shows locations only.
  have hblind : ∀ x : Location × Entry,
      nameIn l (x.1, x.2.respell (spelling x.1)) = nameIn l x := by
    rintro ⟨m, x⟩
    cases m <;> rfl
  rw [namesIn, namesIn, respell, List.filterMap_map]
  congr 1
  funext x
  exact hblind x

theorem list_respell (p : Path) : (fs.respell spelling).list p = fs.list p := by
  simp only [list, locate_respell]
  cases fs.locate p with
  | error r => rfl
  | ok l =>
    simp only [lookup?_respell, namesIn_respell]
    cases fs.lookup? l with
    | none => rfl
    | some x => cases x <;> rfl

end

variable {fs : FileSystem} {spelling : Location → LineEnding}

theorem Respellable.lookup? (h : fs.Respellable spelling) {l : Location} {x : Entry}
    (hx : fs.lookup? l = some x) : x.Respellable (spelling l) := by
  unfold FileSystem.lookup? at hx
  split at hx
  next =>
    cases hx
    trivial
  next => exact h (l, x) (mem_of_find? hx)

/-- The text that is read does not depend on how its line endings are spelled. -/
theorem Respellable.readText_respell (h : fs.Respellable spelling) (p : Path) :
    (fs.respell spelling).readText p = fs.readText p := by
  simp only [readText, readFile, stat, locate_respell]
  cases fs.locate p with
  | error r => rfl
  | ok l =>
    simp only [lookup?_respell]
    cases hentry : fs.lookup? l with
    | none => rfl
    | some x =>
      cases x with
      | directory => rfl
      | file content =>
        obtain ⟨hcr, htext⟩ := h.lookup? hentry
        simp only [Option.map_some, Entry.respell]
        by_cases hlf : spelling l = .lf
        · simp only [LineEnding.spellBytes_eq_self (.inl hlf)]
        · obtain ⟨s, hs⟩ := htext hlf
          obtain ⟨s', hs', hunified⟩ := LineEnding.decode_spellBytes (spelling l) hcr hs
          simp only [hs, hs', hunified]

end FileSystem
end GoldenCheck
