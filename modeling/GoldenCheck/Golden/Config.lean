import GoldenCheck.Golden.Entry
import GoldenCheck.Text.LineEnding

/-!
Reading text and JSON files, the configuration of a golden root, and what the environment says about
both.
-/

namespace GoldenCheck

/-- The text of a file, decoded and with its line endings unified. -/
def FileSystem.readText (fs : FileSystem) (p : Path) : Except Fault (List Char) :=
  match fs.readFile p with
  | .error r => .error (.refused r p.toText)
  | .ok content =>
    match Utf8.decode content with
    | .error e => .error (.undecodable e)
    | .ok t => .ok (unifyLineEndings t)

def FileSystem.readJson (fs : FileSystem) (p : Path) : Except Fault Json.Value :=
  match fs.readText p with
  | .error f => .error f
  | .ok t =>
    match Json.read t with
    | .error e => .error (.unreadable e)
    | .ok v => .ok v

/-- Whether something is at a path. -/
def FileSystem.present (fs : FileSystem) (p : Path) : Except Fault Bool :=
  (fs.exists? p).mapError (.refused · p.toText)

def FileSystem.isFolder (fs : FileSystem) (p : Path) : Except Fault Bool :=
  (fs.isDirectory? p).mapError (.refused · p.toText)

namespace Golden

/-- What surrounds a run: the values of two variables, which the operating system holds as byte
strings, and the root that is used if none is named. -/
structure Environment where
  goldenDir : Option Bytes
  entryFunc : Option Bytes
  defaultRoot : Path

/-- An empty choice is none. -/
def chosen? : Option Text → Option Text
  | some [] => none
  | t => t

/-- The text that the value of a variable chooses. -/
def chosenBy? (value : Option Bytes) : Option Text := chosen? (value.map Utf8.decodeSystem)

/-- The value that a variable takes when it is set to a text. -/
def variableValue (t : Text) : Except Refusal Bytes :=
  match Utf8.systemError? t with
  | some e => .error (.unencodable e)
  | none => if .char '\x00' ∈ t then .error .nullByte else .ok (Utf8.encodeSystem t)

def Environment.root (env : Environment) : Path :=
  match chosenBy? env.goldenDir with
  | some t => Path.ofText t
  | none => env.defaultRoot

def configFile : Text := "config.json"

/-- The fields of a root's configuration; without a configuration there are none. -/
def loadConfig (fs : FileSystem) (root : Path) : Except Fault Json.Fields := do
  if ← fs.present (root.child configFile) then
    match ← fs.readJson (root.child configFile) with
    | .object fields => .ok fields
    | _ => .error (.configNotObject (root.child configFile).toText)
  else .ok []

def entryField : Text := "entry_func"

/-- The value that names the entry point: the environment's, the configuration's, the check. -/
def entryValue (env : Environment) (config : Json.Fields) : Json.Value :=
  match chosenBy? env.entryFunc with
  | some t => .string t
  | none =>
    match config.get? entryField with
    | some v => if v.isVoid then .string EntryPoint.smallPrime.name else v
    | none => .string EntryPoint.smallPrime.name

end Golden
end GoldenCheck
