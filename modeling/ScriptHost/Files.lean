import ScriptHost.Path
import ScriptHost.Text.Utf8
import Std.Data.TreeMap

/-!
# The file tree

The files that bundles are read from: folders and files below one folder, each stored under its path
from there. Every folder on the way to a stored entry is stored too.

* `write`, `makeFolder`, `remove`: changes.
* `locate`: where a path leads, step by step as an operating system walks it.
* `isFile`, `isFolder`, `readText`, `children`: what a program can ask.

What lies outside the one folder holds nothing.
-/

namespace ScriptHost

/-- Why a file cannot be read. -/
inductive FileError where
  | notFound
  | notFolder
  | isFolder
  | nameTooLong
  | zeroInName
  | notText
deriving Repr, DecidableEq

/-- The wording of a file error. -/
def FileError.message : FileError → String
  | .notFound => "No such file or directory (os error 2)"
  | .notFolder => "Not a directory (os error 20)"
  | .isFolder => "Is a directory (os error 21)"
  | .nameTooLong => "File name too long (os error 36)"
  | .zeroInName => "file name contained an unexpected NUL byte"
  | .notText => "stream did not contain valid UTF-8"

/-- An entry of a file tree. -/
inductive FileNode where
  | folder
  | file (bytes : ByteArray)

/-- Folders and files, by their path from the tree's own folder. -/
structure FileTree where
  nodes : Std.TreeMap String FileNode := {}

/-- Where a path leads. -/
inductive Place where
  /-- The folder with this path, which is empty for the tree's own folder. -/
  | folder (path : String)
  | file (bytes : ByteArray)
  | outside

namespace FileTree

/-- The path of an entry of a folder. -/
def childPath (folder name : String) : String :=
  if folder.isEmpty then name else folder ++ "/" ++ name

/-- The path of the folder around a folder; the tree's own folder has none. -/
def parentPath (path : String) : String :=
  match (Text.parts "/" path).dropLast with
  | [] => ""
  | pieces => "/".intercalate pieces

/-! ## Changes -/

/-- Store the folders named by `pieces` below `at`. -/
def makeFolders (t : FileTree) (base : String) : List String → FileTree
  | [] => t
  | piece :: pieces =>
    let path := childPath base piece
    makeFolders ⟨t.nodes.insert path .folder⟩ path pieces

/-- The pieces of a path that name something. -/
def namedPieces (path : String) : List String :=
  (Path.components path).filterMap fun
    | .name text => some text
    | _ => none

/-- Store a folder and the folders around it. -/
def makeFolder (t : FileTree) (path : String) : FileTree :=
  t.makeFolders "" (namedPieces path)

/-- Store a file and the folders around it. -/
def write (t : FileTree) (path : String) (bytes : ByteArray) : FileTree :=
  let pieces := namedPieces path
  ⟨(t.makeFolders "" pieces.dropLast).nodes.insert ("/".intercalate pieces) (.file bytes)⟩

/-- Remove a file, or a folder with all that is in it. -/
def remove (t : FileTree) (path : String) : FileTree :=
  let name := "/".intercalate (namedPieces path)
  ⟨t.nodes.filter fun key _ => key != name && !key.startsWith (name ++ "/")⟩

/-! ## Reading -/

/-- Walk along the pieces of a path. -/
def walk (t : FileTree) : Place → List String → Except FileError Place
  | place, [] => .ok place
  | .file _, _ :: _ => .error .notFolder
  | .outside, piece :: pieces =>
    if piece == "" || piece == "." || piece == ".." then walk t .outside pieces
    else if 255 < piece.utf8ByteSize then .error .nameTooLong
    else .error .notFound
  | .folder path, piece :: pieces =>
    if piece == "" || piece == "." then walk t (.folder path) pieces
    else if piece == ".." then
      walk t (if path.isEmpty then .outside else .folder (parentPath path)) pieces
    else if 255 < piece.utf8ByteSize then .error .nameTooLong
    else
      let child := childPath path piece
      match t.nodes.get? child with
      | none => .error .notFound
      | some .folder => walk t (.folder child) pieces
      | some (.file bytes) => walk t (.file bytes) pieces

/-- Where a path leads. The empty path leads nowhere. -/
def locate (t : FileTree) (path : String) : Except FileError Place :=
  if path.contains '\x00' then .error .zeroInName
  else if path.isEmpty then .error .notFound
  else if 4096 ≤ path.utf8ByteSize then .error .nameTooLong
  else t.walk (if Path.isAbsolute path then .outside else .folder "") (Text.parts "/" path)

/-- Whether a path leads to a file. -/
def isFile (t : FileTree) (path : String) : Bool :=
  match t.locate path with
  | .ok (.file _) => true
  | _ => false

/-- Whether a path leads to a folder. -/
def isFolder (t : FileTree) (path : String) : Bool :=
  match t.locate path with
  | .ok (.folder _) => true
  | .ok .outside => true
  | _ => false

/-- The text of the file that a path leads to. -/
def readText (t : FileTree) (path : String) : Except FileError String :=
  match t.locate path with
  | .error e => .error e
  | .ok (.folder _) => .error .isFolder
  | .ok .outside => .error .isFolder
  | .ok (.file bytes) =>
    match Text.decode? bytes with
    | .ok text => .ok text
    | .error _ => .error .notText

/-- The names of the entries of the folder that a path leads to. -/
def children (t : FileTree) (path : String) : List String :=
  match t.locate path with
  | .ok (.folder base) =>
    let opening := (childPath base "").toList
    t.nodes.keys.filterMap fun key =>
      match Text.afterPrefix? opening key.toList with
      | some rest => if rest.contains '/' then none else some (String.ofList rest)
      | none => none
  | _ => []

end FileTree

end ScriptHost
