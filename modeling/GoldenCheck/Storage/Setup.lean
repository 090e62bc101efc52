import GoldenCheck.Storage.FileSystem

/-! Arranging a file system: directories and files with all directories above them, removal, and the
entries below a location. -/

namespace GoldenCheck
namespace FileSystem

/-- Makes the directory at `l` and those above it, where there are none yet. -/
def makeDirectoriesAt (fs : FileSystem) : Location → Except Refusal FileSystem
  | [] => .ok fs
  | n :: up =>
    match fs.makeDirectoriesAt up with
    | .error r => .error r
    | .ok fs =>
      match fs.lookup? (n :: up) with
      | some .directory => .ok fs
      | some (.file _) => .error .notDirectory
      | none =>
        if h : Location.Valid (n :: up) then .ok (fs.put (n :: up) .directory h)
        else .error .notFound

/-- The location that a path spells, `..` taken back one name. -/
def spelled (fs : FileSystem) (p : Path) : Except Refusal Location :=
  match fileNames p with
  | .error r => .error r
  | .ok ns =>
    .ok (ns.foldl (fun l n => if n = FileName.parent then l.tail else n :: l)
      (if p.anchor = .relative then fs.workingDirectory else []))

def makeDirectories (fs : FileSystem) (p : Path) : Except Refusal FileSystem :=
  match fs.spelled p with
  | .error r => .error r
  | .ok l => fs.makeDirectoriesAt l

/-- Writes a file, with all directories above it. -/
def placeFile (fs : FileSystem) (p : Path) (content : Bytes) : Except Refusal FileSystem :=
  match fs.spelled p with
  | .error r => .error r
  | .ok l =>
    match fs.makeDirectoriesAt l.tail with
    | .error r => .error r
    | .ok fs =>
      if fs.lookup? l = some .directory then .error .isDirectory
      else if h : Location.Valid l then .ok (fs.put l (.file content) h)
      else .error .notFound

/-- Removes the entry at a location and all below it. -/
def removeAt (fs : FileSystem) (l : Location) : FileSystem :=
  { entries := fs.entries.filter fun e => !l.isSuffixOf e.1
    workingDirectory := fs.workingDirectory
    distinct := fs.distinct.sublist (List.filter_sublist.map _)
    valid := fun e he => fs.valid e (List.mem_filter.1 he).1 }

def remove (fs : FileSystem) (p : Path) : Except Refusal FileSystem :=
  match fs.spelled p with
  | .error r => .error r
  | .ok l => if fs.lookup? l = none then .error .notFound else .ok (fs.removeAt l)

/-- The entries below a location with their paths from there, in code point order of the paths. -/
def below (fs : FileSystem) (l : Location) : List (Text × Entry) :=
  let inner := fs.entries.filter fun e => l.isSuffixOf e.1 && e.1 ≠ l
  Text.sortBy Prod.fst (inner.map fun e =>
    let names := (e.1.take (e.1.length - l.length)).reverse
    (Text.join [Path.slash] (names.map Utf8.decodeSystem), e.2))

end FileSystem
end GoldenCheck
