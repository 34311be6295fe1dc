import CallAtlas.Path
import CallAtlas.Text.Encoding
import CallAtlas.Text.LineEnd
import CallAtlas.Text.Quoted

/-!
# Workspaces

The files that dumps are read from: a tree around one directory, the top, given by the path and the
bytes of each file.  Above the top there are directories without end.

## Main definitions

* `Workspace.contents` — the bytes at a path, or why there are none;
* `Workspace.readText` — the text of a file in a named encoding, its line ends unified.
-/

namespace CallAtlas

open CallAtlas.Text

/-- The files around one directory, each by the names that lead to it, and the directories by
theirs.  Double dots stand at the head of names only.  Of two files in one place the first counts.

How texts and bytes translate belongs to the surroundings too: which codec a name of an encoding
stands for, and which texts are no paths and no names of encodings for the want of bytes. -/
structure Workspace where
  files : List (List String × List UInt8) := []
  directories : List (List String) := []
  /-- The codec that a name stands for. -/
  codec? : String → Option Codec := Codec.ofName?
  /-- Why a path has no bytes. -/
  pathFault? : String → Option EncodeFault := fun _ => none
  /-- Why the name of an encoding has no bytes. -/
  encodingFault? : String → Option EncodeFault := fun _ => none

/-- Why a file gives no text. -/
inductive FileFault where
  | missing (path : Path)
  | isDirectory (path : Path)
  /-- A name that something is looked for under is a file. -/
  | notADirectory (path : Path)
  /-- The path, or a name in it, has more bytes than the system takes. -/
  | nameTooLong (path : Path)
  /-- The path has no bytes. -/
  | unencodablePath (fault : EncodeFault)
  /-- No path has a null character. -/
  | nullInPath
  /-- The name of the encoding has no bytes. -/
  | unencodableEncoding (fault : EncodeFault)
  /-- No name of an encoding has a null character. -/
  | nullInEncoding
  | unknownEncoding (name : String)
  | undecodable (fault : DecodeFault)
  deriving DecidableEq, Repr

/-- The wording of a fault. -/
def FileFault.message : FileFault → String
  | .missing path => s!"[Errno 2] No such file or directory: {quote path.toString}"
  | .isDirectory path => s!"[Errno 21] Is a directory: {quote path.toString}"
  | .notADirectory path => s!"[Errno 20] Not a directory: {quote path.toString}"
  | .nameTooLong path => s!"[Errno 36] File name too long: {quote path.toString}"
  | .unencodablePath fault => fault.message
  | .nullInPath => "embedded null byte"
  | .unencodableEncoding fault => fault.message
  | .nullInEncoding => "embedded null character"
  | .unknownEncoding name => s!"unknown encoding: {name}"
  | .undecodable fault => fault.message

namespace Workspace

/-- The name that leads one directory up. -/
def parentName : String := ".."

/-- Where a name leads from a directory, without a look at what is there. -/
def towards (directory : List String) (name : String) : List String :=
  if name = parentName && directory.getLast?.any (· ≠ parentName) then directory.dropLast
  else directory ++ [name]

/-- Where names lead from a directory, without a look at what is there, and the directories on the
way. -/
def walk (start : List String) : List String → List String × List (List String)
  | [] => (start, [])
  | name :: rest =>
    let (stop, passed) := walk (towards start name) rest
    (stop, start :: passed)

/-- The workspace after writing files, given by paths and bytes, one after the other: directories on
the way to them are made, and a file written later replaces an earlier one. -/
def ofFiles (files : List (String × List UInt8)) : Workspace where
  files := files.reverse.map fun (path, bytes) => ((walk [] (Path.ofString path).names).1, bytes)
  directories := files.flatMap fun (path, _) => (walk [] (Path.ofString path).names).2

/-- What a path leads to. -/
inductive Place where
  | file (bytes : List UInt8)
  /-- A directory, by the names that lead to it. -/
  | directory (names : List String)
  /-- The root of all directories. -/
  | root
  | nowhere

/-- What the names `names` lead to from the top of the workspace. -/
def placeAt (w : Workspace) (names : List String) : Place :=
  match w.files.lookup names with
  | some bytes => .file bytes
  | none =>
    if names.all (· = parentName) || w.directories.contains names then
      .directory names
    else
      .nowhere

/-- What a name leads to from a directory. -/
def enter (w : Workspace) (name : String) : Place → Place
  | .directory names => w.placeAt (towards names name)
  | .root => if name = parentName then .root else .nowhere
  | .file _ => .nowhere
  | .nowhere => .nowhere

/-- The greatest number of bytes in a name. -/
def nameLimit : Nat := 255

/-- The greatest number of bytes in a path. -/
def pathLimit : Nat := 4095

/-- The bytes that names lead to from a place on the way along `path`. -/
def follow (w : Workspace) (path : Path) : Place → List String → Except FileFault (List UInt8)
  | .file bytes, [] => .ok bytes
  | .file _, _ :: _ => .error (.notADirectory path)
  | .nowhere, _ => .error (.missing path)
  | .directory _, [] => .error (.isDirectory path)
  | .root, [] => .error (.isDirectory path)
  | place, name :: rest =>
    if nameLimit < name.utf8ByteSize then .error (.nameTooLong path)
    else w.follow path (w.enter name place) rest

/-- The bytes of the file at a path. -/
def contents (w : Workspace) (path : Path) : Except FileFault (List UInt8) :=
  match w.pathFault? path.toString with
  | some fault => .error (.unencodablePath fault)
  | none =>
    if path.toString.contains '\x00' then .error .nullInPath
    else if pathLimit < path.toString.utf8ByteSize then .error (.nameTooLong path)
    else w.follow path (if path.root.isEmpty then .directory [] else .root) path.names

/-- Refuses what no encoding can be called. -/
def checkEncoding (w : Workspace) (encoding : String) : Except FileFault Unit :=
  match w.encodingFault? encoding with
  | some fault => .error (.unencodableEncoding fault)
  | none => if encoding.contains '\x00' then .error .nullInEncoding else .ok ()

/-- The text of a run of bytes in a named encoding, its line ends unified. -/
def decode (w : Workspace) (encoding : String) (bytes : List UInt8) : Except FileFault String :=
  match w.codec? encoding with
  | none => .error (.unknownEncoding encoding)
  | some codec =>
    match codec bytes with
    | .error fault => .error (.undecodable fault)
    | .ok text => .ok (String.ofList (unifyLineEnds text))

/-- The text of the file at a path.  A file that cannot be opened is reported before an encoding
that is not known, but after one that no encoding can be called. -/
def readText (w : Workspace) (path : Path) (encoding : String) : Except FileFault String := do
  w.checkEncoding encoding
  let bytes ← w.contents path
  w.decode encoding bytes

end Workspace

end CallAtlas
