import TrigPainting.Picture.Png
import TrigPainting.Storage.Path

/-!
# Files and directories

A file tree says what lies at every location. Commands find locations by paths,
from a working directory, as an operating system does: every step needs a
directory to start from.

## Main definitions

- `Entry` — a directory or a file with its contents
- `FileTree`, `FileTree.get?`, `FileTree.put` — what lies where
- `Disk` — a file tree and a working directory
- `Disk.readText`, `Disk.write`, `Disk.writePicture`, `Disk.makeDirectories` — the
  operations of commands

## Design notes

A picture is kept as its pixels. As bytes it is not text, so reading it as text
fails like reading other bytes that are none.

Operations fail for what the tree, the path and the picture give reason for. Files
that may not be read or written and disks that are full are not described.
-/

namespace TrigPainting.Storage

/-- What lies at a location. -/
inductive Entry where
  | directory
  /-- A file that holds text. -/
  | text (content : String)
  /-- A file that holds a picture. -/
  | picture (content : Image)
  /-- A file that holds bytes. -/
  | bytes (content : ByteArray)

/-- The names from an entry up to the root, innermost first. -/
abbrev Location := List String

/-- What lies at every location but the root, which is a directory. -/
structure FileTree where
  entries : List (Location × Entry)

namespace FileTree

/-- No files and no directories but the root. -/
def empty : FileTree := ⟨[]⟩

/-- What lies at a location. -/
def get? (tree : FileTree) : Location → Option Entry
  | [] => some .directory
  | location => tree.entries.lookup location

/-- A tree with the entry at a location replaced or added. -/
def put (tree : FileTree) (location : Location) (entry : Entry) : FileTree :=
  ⟨(location, entry) :: tree.entries.filter fun old => old.1 != location⟩

private theorem lookup_filter_ne {location other : Location} (h : other ≠ location)
    (entries : List (Location × Entry)) :
    (entries.filter fun old => old.1 != location).lookup other = entries.lookup other := by
  induction entries with
  | nil => rfl
  | cons old rest ih =>
    by_cases hold : old.1 = location
    · have hne : (other == old.1) = false := by simpa [hold] using h
      rw [List.filter_cons_of_neg (by simp [hold]), ih, List.lookup_cons, hne]
    · rw [List.filter_cons_of_pos (by simpa using hold), List.lookup_cons, List.lookup_cons, ih]

/-- What was put lies where it was put. -/
theorem get?_put_self (tree : FileTree) {location : Location} (h : location ≠ [])
    (entry : Entry) : (tree.put location entry).get? location = some entry := by
  cases location with
  | nil => exact absurd rfl h
  | cons name rest => simp [get?, put]

/-- Every other location keeps what lies there. -/
theorem get?_put_of_ne (tree : FileTree) {location other : Location} (h : other ≠ location)
    (entry : Entry) : (tree.put location entry).get? other = tree.get? other := by
  cases other with
  | nil => rfl
  | cons name rest =>
    have hne : (name :: rest == location) = false := by simpa using h
    simp only [get?, put]
    rw [List.lookup_cons, hne]
    exact lookup_filter_ne h tree.entries

/-- The location that steps lead to. Each step starts from a directory; what
lies at the end is not asked. -/
def walk (tree : FileTree) : Location → List Step → Except Failure Location
  | location, [] => .ok location
  | location, step :: rest =>
    match tree.get? location with
    | none => .error .notFound
    | some .directory =>
      match step with
      | .up => tree.walk location.tail rest
      | .down name =>
        if 255 < name.utf8ByteSize then .error .nameTooLong
        else tree.walk (name :: location) rest
    | some _ => .error .notDirectory

/-- Makes the directory that steps lead to. -/
def makeDirectoryAt (tree : FileTree) (location : Location) (steps : List Step) :
    Except Failure FileTree :=
  match tree.walk location steps with
  | .error e => .error e
  | .ok place =>
    match tree.get? place with
    | some _ => .error .alreadyExists
    | none => .ok (tree.put place .directory)

/-- Whether steps lead to a directory. -/
def isDirectoryAt (tree : FileTree) (location : Location) (steps : List Step) : Bool :=
  match tree.walk location steps with
  | .error _ => false
  | .ok place =>
    match tree.get? place with
    | some .directory => true
    | _ => false

/-- Makes a directory, or finds it made. -/
def settleDirectoryAt (tree : FileTree) (location : Location) (steps : List Step) :
    Except Failure FileTree :=
  match tree.makeDirectoryAt location steps with
  | .ok tree => .ok tree
  | .error e => if tree.isDirectoryAt location steps then .ok tree else .error e

/-- Makes the directory that steps lead to and those on the way that are
missing. The steps are given last first. The way is only looked at if the
directory cannot be made for want of it. -/
def makeDirectoriesAt (tree : FileTree) (location : Location) :
    List Step → Except Failure Unit × FileTree
  | [] => (.ok (), tree)
  | last :: way =>
    let steps := (last :: way).reverse
    match tree.settleDirectoryAt location steps with
    | .ok tree => (.ok (), tree)
    -- Only a missing directory on the way can be mended.
    | .error .notFound =>
      match tree.makeDirectoriesAt location way with
      | (.error e, tree) => (.error e, tree)
      | (.ok (), tree) =>
        match tree.settleDirectoryAt location steps with
        | .ok tree => (.ok (), tree)
        | .error e => (.error e, tree)
    | .error e => (.error e, tree)

end FileTree

/-- A file tree and the directory that relative paths start from. -/
structure Disk where
  tree : FileTree
  here : Location

namespace Disk

/-- The location that the first step of a path starts from. A path with a
character that ends names, or too long for the system, is refused at once. -/
def origin (disk : Disk) (path : Path) : Except Failure Location :=
  if path.text.toList.contains '\x00' then .error .nulInName
  else if path.text.isEmpty then .error .notFound
  else if 4096 ≤ path.text.utf8ByteSize then .error .nameTooLong
  else .ok (if path.isAbsolute then [] else disk.here)

/-- What lies at the end of a path. -/
def find (disk : Disk) (path : Path) : Except Failure (Location × Option Entry) :=
  match disk.origin path with
  | .error e => .error e
  | .ok start =>
    match disk.tree.walk start path.steps with
    | .error e => .error e
    | .ok place =>
      match disk.tree.get? place with
      | some .directory => .ok (place, some .directory)
      | some entry =>
        if path.endsInDirectory then .error .notDirectory else .ok (place, some entry)
      | none => .ok (place, none)

/-- The text of a file. -/
def readText (disk : Disk) (path : Path) : Except Failure String :=
  match disk.find path with
  | .error e => .error e
  | .ok (_, none) => .error .notFound
  | .ok (_, some .directory) => .error .isDirectory
  | .ok (_, some (.text content)) => .ok content
  | .ok (_, some (.picture _)) => .error .notText
  | .ok (_, some (.bytes content)) =>
    match String.fromUTF8? content with
    | some text => .ok text
    | none => .error .notText

/-- Writes a file, in place of an older one. -/
def write (disk : Disk) (path : Path) (file : Entry) : Except Failure Disk :=
  match disk.find path with
  | .error e => .error e
  | .ok (_, some .directory) => .error .isDirectory
  | .ok (place, _) => .ok { disk with tree := disk.tree.put place file }

/-- Writes the file of a picture, in place of an older one. The file is there before
the picture is put into the format, and stays empty if it has no place there. -/
def writePicture (disk : Disk) (path : Path) (image : Image) : Except Failure Unit × Disk :=
  let (result, file) : Except Failure Unit × Entry :=
    match image.checkFormat with
    | .error e => (.error (.other e.message), .text "")
    | .ok () => (.ok (), .picture image)
  match disk.write path file with
  | .error e => (.error e, disk)
  | .ok disk => (result, disk)

/-- Makes a directory and those on the way to it that are missing. -/
def makeDirectories (disk : Disk) (path : Path) : Except Failure Unit × Disk :=
  match disk.origin path with
  | .error e => (.error e, disk)
  | .ok start =>
    let (result, tree) := disk.tree.makeDirectoriesAt start path.steps.reverse
    (result, { disk with tree := tree })

end Disk

end TrigPainting.Storage
