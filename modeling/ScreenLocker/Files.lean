import ScreenLocker.Fault
import ScreenLocker.Memory
import ScreenLocker.Text.Blank

/-! A tree of files, as far as the locker reads it, and paths into it. A path is kept as it is written; only
looking it up takes it apart. -/

namespace ScreenLocker

namespace Path

/-- The path of `name` under `dir`. An absolute name stands for itself. -/
def join (dir name : String) : String :=
  if name.startsWith "/" then name
  else if dir.isEmpty || dir.endsWith "/" then dir ++ name
  else dir ++ "/" ++ name

/-- The names on a path, in order; a leading empty name means the root. -/
def parts (path : String) : List String :=
  let names := path.splitOn "/"
  match names with
  | "" :: rest => "" :: rest.filter fun n => n ≠ ""
  | names => names.filter fun n => n ≠ ""

/-- A name may have this many bytes. -/
def maxNameLength : Nat := 255

/-- A path may have this many bytes. -/
def maxLength : Nat := 4095

/-- The last name on a path, unless the path ends above or at a directory mark. -/
def fileName? (path : String) : Option String :=
  match ((parts path).filter fun n => n ≠ "." && n ≠ "").getLast? with
  | some ".." => none
  | last => last

end Path

/-- Files by the names on the way to them; a directory has no content. The directories above an entry are there
without being listed. -/
structure FileTree where
  entries : List (List String × Option Bytes) := []

namespace FileTree

inductive Node where
  | directory
  | file (content : Bytes)

def ofPaths (files : List (String × Option Bytes)) : FileTree :=
  ⟨files.map fun (path, content) => (Path.parts path, content)⟩

/-- What stands at a place, given by the names from the top. -/
def node? (t : FileTree) (place : List String) : Option Node :=
  match t.entries.lookup place with
  | some (some content) => some (.file content)
  | some none => some .directory
  | none =>
    if place.isEmpty || place = [""] || t.entries.any fun (names, _) => place.isPrefixOf names then some .directory
    else none

/-- Follows names from a place; only directories can be passed through. -/
def walk (t : FileTree) : (names : List String) → (place : List String) → Except Nat (List String)
  | [], place => .ok place
  | name :: rest, place =>
    match t.node? place with
    | none => .error Errno.noEntry
    | some (.file _) => .error Errno.notDirectory
    | some .directory =>
      if name = "." then walk t rest place
      else if name = ".." then walk t rest (if place = [""] then place else place.dropLast)
      else if Path.maxNameLength < name.utf8ByteSize then .error Errno.nameTooLong
      else walk t rest (place ++ [name])

/-- What a path leads to. A path that ends in a slash leads to directories alone. -/
def find (t : FileTree) (path : String) : Except Fault Node := do
  if path.any (· = Char.ofNat 0) then throw .nulInName
  if path.isEmpty then throw (.os Errno.noEntry)
  if Path.maxLength < path.utf8ByteSize then throw (.os Errno.nameTooLong)
  match t.walk (Path.parts path) [] with
  | .error errno => throw (.os errno)
  | .ok place =>
    match t.node? place with
    | none => throw (.os Errno.noEntry)
    | some (.file content) =>
      if path.endsWith "/" then throw (.os Errno.notDirectory)
      pure (.file content)
    | some .directory => pure .directory

def isFile (t : FileTree) (path : String) : Bool :=
  match t.find path with
  | .ok (.file _) => true
  | _ => false

/-- The text of a file. -/
def read (t : FileTree) (path : String) : Except Fault String :=
  match t.find path with
  | .error fault => .error fault
  | .ok .directory => .error (.os Errno.isDirectory)
  | .ok (.file content) =>
    match Text.ofBytes? content with
    | some text => .ok text
    | none => .error .notUtf8

end FileTree

end ScreenLocker
