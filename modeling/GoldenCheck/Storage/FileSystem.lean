import GoldenCheck.Storage.Path

/-!
A file system as a value: directories and files at their locations, and a working directory. Names
are byte strings. Operations take paths, find the location part by part as the operating system
does, and either answer or refuse.

Left out are links, hard and symbolic, so that an entry has one location; permissions, so that every
entry can be read and written; and writes that fail once the file is open, as on a full disk.
-/

namespace GoldenCheck

abbrev FileName := Bytes

namespace FileName

def current : FileName := [0x2E]

def parent : FileName := [0x2E, 0x2E]

/-- The most bytes of a name. -/
def maxLength : Nat := 255

/-- The names that an entry of a directory can have. -/
def Valid (n : FileName) : Prop :=
  n ≠ [] ∧ n ≠ current ∧ n ≠ parent ∧ 0x2F ∉ n ∧ 0 ∉ n ∧ n.length ≤ maxLength

instance (n : FileName) : Decidable (Valid n) :=
  inferInstanceAs (Decidable (n ≠ [] ∧ n ≠ current ∧ n ≠ parent ∧ 0x2F ∉ n ∧ 0 ∉ n ∧
    n.length ≤ maxLength))

end FileName

/-- Where an entry is: its name, the name of its directory, and so on up to the root. -/
abbrev Location := List FileName

inductive Entry where
  | directory
  | file (content : Bytes)
deriving DecidableEq

/-- Why an operation on a path fails. -/
inductive Refusal where
  | notFound
  | notDirectory
  | isDirectory
  | nameTooLong
  | nullByte
  | unencodable (e : Utf8.EncodeError)
deriving DecidableEq

/-- Whether a refusal tells that there is nothing at a path. -/
def Refusal.meansAbsent : Refusal → Bool
  | .notFound | .notDirectory | .nullByte | .unencodable _ => true
  | .isDirectory | .nameTooLong => false

/-- A location other than the root that an entry can have. -/
def Location.Valid (l : Location) : Prop := l ≠ [] ∧ ∀ n ∈ l, FileName.Valid n

instance (l : Location) : Decidable (Location.Valid l) :=
  inferInstanceAs (Decidable (l ≠ [] ∧ ∀ n ∈ l, FileName.Valid n))

/-- The entries below the root, each at a location of its own, in the order in which a listing shows
them. -/
structure FileSystem where
  entries : List (Location × Entry)
  workingDirectory : Location
  distinct : (entries.map Prod.fst).Nodup
  valid : ∀ e ∈ entries, Location.Valid e.1

namespace FileSystem

def empty (workingDirectory : Location) : FileSystem :=
  ⟨[], workingDirectory, by simp, by simp⟩

def find? (l : Location) : List (Location × Entry) → Option Entry
  | [] => none
  | e :: es => if e.1 = l then some e.2 else find? l es

/-- What is at a location; at the root there is a directory. -/
def lookup? (fs : FileSystem) (l : Location) : Option Entry :=
  if l = [] then some .directory else find? l fs.entries

/-! ## Finding a path -/

/-- The most bytes of a path. -/
def maxPathLength : Nat := 4095

/-- The names on a path, as bytes. -/
def fileNames (p : Path) : Except Refusal (List FileName) :=
  match Utf8.systemError? p.toText with
  | some e => .error (.unencodable e)
  | none =>
    if .char '\x00' ∈ p.toText then .error .nullByte
    else if maxPathLength < (Utf8.encodeSystem p.toText).length then .error .nameTooLong
    else .ok (p.parts.map Utf8.encodeSystem)

/-- The location of the name `n` in the directory at `l`, whether or not there is such an entry. -/
def enter (fs : FileSystem) (l : Location) (n : FileName) : Except Refusal Location :=
  match fs.lookup? l with
  | none => .error .notFound
  | some (.file _) => .error .notDirectory
  | some .directory =>
    if n = FileName.parent then .ok l.tail
    else if FileName.maxLength < n.length then .error .nameTooLong
    else .ok (n :: l)

/-- The location that names lead to from `l`. -/
def walk (fs : FileSystem) : Location → List FileName → Except Refusal Location
  | l, [] => .ok l
  | l, n :: ns =>
    match fs.enter l n with
    | .error r => .error r
    | .ok l => fs.walk l ns

/-- The location of a path. All entries on the way to it exist; it may be free itself. -/
def locate (fs : FileSystem) (p : Path) : Except Refusal Location :=
  match fileNames p with
  | .error r => .error r
  | .ok ns => fs.walk (if p.anchor = .relative then fs.workingDirectory else []) ns

/-! ## Reading -/

/-- The entry at a path. -/
def stat (fs : FileSystem) (p : Path) : Except Refusal Entry :=
  match fs.locate p with
  | .error r => .error r
  | .ok l =>
    match fs.lookup? l with
    | none => .error .notFound
    | some e => .ok e

/-- Whether the entry at a path exists and is as `test` asks. -/
def holds (fs : FileSystem) (test : Entry → Bool) (p : Path) : Except Refusal Bool :=
  match fs.stat p with
  | .ok e => .ok (test e)
  | .error r => if r.meansAbsent then .ok false else .error r

def exists? (fs : FileSystem) (p : Path) : Except Refusal Bool := fs.holds (fun _ => true) p

def isDirectory? (fs : FileSystem) (p : Path) : Except Refusal Bool :=
  fs.holds (· = .directory) p

def readFile (fs : FileSystem) (p : Path) : Except Refusal Bytes :=
  match fs.stat p with
  | .error r => .error r
  | .ok .directory => .error .isDirectory
  | .ok (.file content) => .ok content

/-- The name of an entry of the directory at `l`. -/
def nameIn (l : Location) : Location × Entry → Option FileName
  | (n :: up, _) => if up = l then some n else none
  | ([], _) => none

/-- The names in the directory at a location. -/
def namesIn (fs : FileSystem) (l : Location) : List FileName := fs.entries.filterMap (nameIn l)

/-- The names in a directory, in no particular order. -/
def list (fs : FileSystem) (p : Path) : Except Refusal (List FileName) :=
  match fs.locate p with
  | .error r => .error r
  | .ok l =>
    match fs.lookup? l with
    | none => .error .notFound
    | some (.file _) => .error .notDirectory
    | some .directory => .ok (fs.namesIn l)

/-! ## Writing -/

/-- Puts an entry at a location, in the place of the one that is there or else last. -/
def putIn (l : Location) (x : Entry) : List (Location × Entry) → List (Location × Entry)
  | [] => [(l, x)]
  | e :: es => if e.1 = l then (l, x) :: es else e :: putIn l x es

theorem mem_putIn {l : Location} {x : Entry} {e : Location × Entry}
    {es : List (Location × Entry)} (h : e ∈ putIn l x es) : e = (l, x) ∨ e ∈ es := by
  induction es with
  | nil => simpa [putIn] using h
  | cons a es ih =>
    simp only [putIn] at h
    split at h <;> simp only [List.mem_cons] at h ⊢
    · exact h.imp_right .inr
    · rcases h with h | h
      · exact .inr (.inl h)
      · exact (ih h).imp_right .inr

theorem putIn_distinct {l : Location} {x : Entry} {es : List (Location × Entry)}
    (h : (es.map Prod.fst).Nodup) : ((putIn l x es).map Prod.fst).Nodup := by
  induction es with
  | nil => simp [putIn]
  | cons a es ih =>
    simp only [List.map_cons, List.nodup_cons] at h
    simp only [putIn]
    split
    next ha => simpa [← ha] using h
    next ha =>
      simp only [List.map_cons, List.nodup_cons]
      refine ⟨fun hm => ?_, ih h.2⟩
      obtain ⟨e, he, hl⟩ := List.mem_map.1 hm
      rcases mem_putIn he with rfl | he
      · exact ha hl.symm
      · exact h.1 (hl ▸ List.mem_map.2 ⟨e, he, rfl⟩)

def put (fs : FileSystem) (l : Location) (x : Entry) (h : Location.Valid l) : FileSystem :=
  { entries := putIn l x fs.entries
    workingDirectory := fs.workingDirectory
    distinct := putIn_distinct fs.distinct
    valid := fun e he => by
      rcases mem_putIn he with rfl | he
      · exact h
      · exact fs.valid e he }

/-- Creates a file or replaces its content. -/
def writeFile (fs : FileSystem) (p : Path) (content : Bytes) : Except Refusal FileSystem :=
  match fs.locate p with
  | .error r => .error r
  | .ok l =>
    if fs.lookup? l = some .directory then .error .isDirectory
    else if h : Location.Valid l then .ok (fs.put l (.file content) h)
    else .error .notFound

end FileSystem
end GoldenCheck
