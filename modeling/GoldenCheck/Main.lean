import GoldenCheck.Golden.Command
import GoldenCheck.Prime.Command
import GoldenCheck.Storage.Setup

/-!
The program. Its first argument tells which command the others are for. The golden command runs on a
copy of what it can read of its root, and the files that it changed there are then written.
-/

namespace GoldenCheck
namespace Main

def shown (t : Text) : String :=
  String.ofList (t.filterMap fun
    | .char c => some c
    | .surrogate _ => none)

def orKeep (fs : FileSystem) : Except Refusal FileSystem → FileSystem
  | .ok next => next
  | .error _ => fs

/-- The working directory, with nothing in it. -/
def workspace : IO FileSystem := do
  let here := Path.ofText (← IO.currentDir).toString
  let location := match FileSystem.fileNames here with
    | .ok names => names.reverse
    | .error _ => []
  let fs := FileSystem.empty location
  return orKeep fs (fs.makeDirectoriesAt location)

/-- Copies the directory or the file at a path, if there is one. -/
def copyEntry (fs : FileSystem) (p : Path) : IO FileSystem := do
  let place := (← IO.currentDir) / shown p.toText
  if ← place.isDir then return orKeep fs (fs.makeDirectories p)
  else if ← place.pathExists then
    let content ← IO.FS.readBinFile place
    return orKeep fs (fs.placeFile p content.toList)
  else return fs

/-- Copies the directories on the way to a path, and the path. -/
def copyPath (fs : FileSystem) (p : Path) : IO FileSystem :=
  (List.range (p.parts.length + 1)).foldlM
    (fun fs n => copyEntry fs { p with parts := p.parts.take n }) fs

/-- Copies what the golden command reads: the configuration of a root, and each case's files. -/
def copyRoot (fs : FileSystem) (root : Path) : IO FileSystem := do
  let mut fs ← copyPath fs root
  let place := (← IO.currentDir) / shown root.toText
  if ← place.isDir then
    fs ← copyEntry fs (root.child Golden.configFile)
    for entry in ← place.readDir do
      let case := root.child entry.fileName
      fs ← copyEntry fs case
      if ← entry.path.isDir then
        fs ← copyEntry fs (case.child Golden.inputsFile)
        fs ← copyEntry fs (case.child Golden.expectedFile)
  return fs

/-- Writes the files that a command changed. -/
def writeChanges (before after : FileSystem) : IO Unit := do
  for (location, entry) in after.entries do
    match entry with
    | .directory => pure ()
    | .file content =>
      if before.lookup? location ≠ some entry then
        let names := location.reverse.map fun n => shown (Utf8.decodeSystem n)
        IO.FS.writeBinFile ("/" ++ String.intercalate "/" names) (ByteArray.mk content.toArray)

/-- Shows what a command printed and returns its exit status. -/
def present (c : Console) : IO UInt32 := do
  (← IO.getStdout).putStr (shown c.out)
  (← IO.getStderr).putStr (shown c.err)
  match c.ending with
  | .returned status | .exited status => return status.toUInt32
  | .failed f =>
    IO.eprintln (shown f.message)
    return 1

def golden (args : List Text) : IO UInt32 := do
  let env : Golden.Environment :=
    { goldenDir := (← IO.getEnv "GOLDEN_DIR").map fun s => Utf8.encodeChars s.toList
      entryFunc := (← IO.getEnv "GOLDEN_ENTRY_FUNC").map fun s => Utf8.encodeChars s.toList
      defaultRoot := Path.ofText ((← IO.appDir) / "golden").toString }
  let root := match Golden.parseRequest args with
    | .proceed r => r.root env
    | _ => env.root
  let before ← copyRoot (← workspace) root
  let (after, console) := Golden.goldenCommand env before args
  writeChanges before after
  present console

end Main
end GoldenCheck

def main (args : List String) : IO UInt32 :=
  match args with
  | "golden" :: rest => GoldenCheck.Main.golden (rest.map GoldenCheck.Text.ofString)
  | "numbers" :: rest =>
    GoldenCheck.Main.present
      (GoldenCheck.Prime.numbersCommand (rest.map GoldenCheck.Text.ofString))
  | _ => do
    IO.eprintln "usage: goldencheck (golden | numbers) [argument ...]"
    return 2
