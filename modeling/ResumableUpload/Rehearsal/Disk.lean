import ResumableUpload.Http.Host
import ResumableUpload.World

/-!
# A disk for rehearsals

Files and directories below a working directory. Paths are followed name by name: each name but the
last must be a directory, a single dot stays where it is and a double one steps up. Nothing is known
of what lies outside the working directory but that it is a directory.
-/

namespace ResumableUpload.Rehearsal

/-- What stands at a path. -/
inductive Node
  | file (bytes : Bytes) (onlyOwner : Bool)
  | directory
  deriving DecidableEq, Repr

/-- The nodes below the working directory, each with the names that lead to it. -/
structure Disk where
  nodes : List (List String × Node)
  deriving DecidableEq, Repr

namespace Disk

/-- A place: names that lead to it from the working directory, or `none` for outside. -/
abbrev Place := Option (List String)

/-- What stands at a place. -/
def at? (d : Disk) : Place → Option Node
  | none => some .directory
  | some [] => some .directory
  | some names => d.nodes.lookup names

/-- Puts a node at a place. -/
def put (d : Disk) (names : List String) (node : Node) : Disk :=
  ⟨(names, node) :: d.nodes.filter fun entry => entry.1 ≠ names⟩

/-- The place that a name leads to. -/
def enter (place : Place) (name : String) : Place :=
  match place with
  | none => none
  | some names => some (names ++ [name])

/-- The place above. -/
def up : Place → Place
  | none => none
  | some [] => none
  | some names => some names.dropLast

/-- Follows names from a place; the answer is the last place, where there may be nothing. -/
def follow (d : Disk) (place : Place) : List String → Except FileFault Place
  | [] => .ok place
  | name :: rest =>
    match d.at? place with
    | none => .error .absent
    | some (.file _ _) => .error .notDirectory
    | some .directory =>
      if name = "" ∨ name = "." then follow d place rest
      else if name = ".." then follow d (up place) rest
      else if 255 < name.utf8ByteSize then .error .nameTooLong
      else if place = none then .error .absent
      else follow d (enter place name) rest

/-- The place of a path. -/
def locate (d : Disk) (path : String) : Except FileFault Place :=
  if path.toList.contains '\x00' then .error .nulInPath
  else if path.isEmpty then .error .absent
  else if 4096 ≤ path.utf8ByteSize then .error .nameTooLong
  else
    let names := (path.toList.splitOn '/').map String.ofList
    if path.startsWith "/" then d.follow none names else d.follow (some []) names

/-- What stands at a path. -/
def find (d : Disk) (path : String) : Except FileFault Node :=
  match d.locate path with
  | .error fault => .error fault
  | .ok place =>
    match d.at? place with
    | none => .error .absent
    | some node => .ok node

/-- The size of a directory. -/
def directorySize : UInt64 := 4096

/-- How often the reading of a directory fails: more often than any upload is resumed. -/
def directoryReads : Nat := 4096

/-- Opens a file. A directory can be opened, but not be read. -/
def openFile (d : Disk) (path : String) : Except FileFault OpenFile :=
  match d.find path with
  | .error fault => .error fault
  | .ok (.file bytes _) => .ok ⟨bytes.length.toUInt64, .ofBytes bytes⟩
  | .ok .directory =>
    let failure := Delivery.failure FileFault.isDirectory.message
    .ok ⟨directorySize, .ofScript (List.replicate directoryReads failure)⟩

/-- The text of a file. -/
def readText (d : Disk) (path : String) : Except FileFault String :=
  match d.find path with
  | .error fault => .error fault
  | .ok .directory => .error .isDirectory
  | .ok (.file bytes _) =>
    match Bytes.text? bytes with
    | some text => .ok text
    | none => .error .notText

/-- Is there anything at a path? -/
def isThere (d : Disk) (path : String) : Bool :=
  match d.find path with
  | .ok _ => true
  | .error _ => false

/-- Makes the directories that lead from `done` to the end of `names`. -/
def makeDirectories (d : Disk) (done : List String) : List String → Except FileFault Disk
  | [] => .ok d
  | name :: rest =>
    let here := done ++ [name]
    match d.at? (some here) with
    | some .directory => makeDirectories d here rest
    | some (.file _ _) => .error (if rest.isEmpty then .exists else .notDirectory)
    | none => makeDirectories (d.put here .directory) here rest

/-- Writes a file of the working directory, with the directories that lead to it. -/
def write (d : Disk) (path : String) (bytes : Bytes) (onlyOwner : Bool) : Except FileFault Disk :=
  let names := ((path.toList.splitOn '/').map String.ofList).filter fun n => n ≠ "" ∧ n ≠ "."
  match d.makeDirectories [] names.dropLast with
  | .error fault => .error fault
  | .ok d =>
    match d.at? (some names) with
    | some .directory => .error .isDirectory
    | _ => .ok (d.put names (.file bytes onlyOwner))

/-- A disk with some files. -/
def ofFiles (files : List (String × Bytes)) : Disk :=
  files.foldl
    (fun d (path, bytes) =>
      match d.write path bytes false with
      | .ok d => d
      | .error _ => d)
    ⟨[]⟩

end Disk

end ResumableUpload.Rehearsal
