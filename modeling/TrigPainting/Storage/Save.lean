import TrigPainting.Log.Event
import TrigPainting.Storage.FileTree
import TrigPainting.Storage.Fingerprint

/-!
# Saving pictures

The picture of index `i` lies in a directory `generated_image_i` of its own,
beside a details file whose name carries the tag of the palette.

## Main definitions

- `imageDirectory`, `detailsPath` — where a picture and its details go
- `save` — writes both
- `SavedImage`, `SaveError`, `Saving` — what comes of it

## Design notes

The picture is written before the details file. What was written before a
failure stays, the empty file of a picture without pixels too.
-/

namespace TrigPainting

/-- Why a picture cannot be saved. -/
inductive SaveError where
  /-- The details file cannot be written. -/
  | palette (cause : PaletteError)
  /-- The picture cannot be written. -/
  | raster (cause : RasterError)
  /-- The directory cannot be made. -/
  | directory (cause : Storage.Failure)

/-- The wording of an error. -/
def SaveError.message : SaveError → String
  | palette cause => cause.message
  | raster cause => cause.message
  | directory cause => "I/O error: " ++ cause.message

/-- The messages of the errors behind an error, the nearest first. An error of
the palette or the picture stands for itself. -/
def SaveError.causes : SaveError → List String
  | palette cause => cause.causes
  | raster cause => cause.causes
  | directory cause => [cause.message]

namespace Storage

/-- The paths of a picture that was saved. -/
structure SavedImage where
  directory : Path
  image : Path
  details : Path
deriving DecidableEq, Repr

/-- What comes of saving a picture. -/
structure Saving where
  result : Except SaveError SavedImage
  disk : Disk
  events : List Log.Event

/-- The directory of the picture of an index. -/
def imageDirectory (out : Path) (index : Nat) : Path :=
  out.join ("generated_image_" ++ Decimal.naturalText index)

/-- The name of the picture in its directory. -/
def imageName : String := "image.png"

/-- The name of the details file of a palette. -/
def detailsName (p : Palette) : String :=
  "details_" ++ p.tag ++ ".txt"

/-- The details file of a palette in a directory. -/
def detailsPath (directory : Path) (p : Palette) : Path :=
  directory.join (detailsName p)

/-- The paths of the picture of an index and a palette. -/
def savedImage (out : Path) (index : Nat) (p : Palette) : SavedImage :=
  let directory := imageDirectory out index
  ⟨directory, directory.join imageName, detailsPath directory p⟩

/-- The paths, in the order in which they are written to. -/
def SavedImage.paths (saved : SavedImage) : List Path :=
  [saved.directory, saved.image, saved.details]

/-- Writes a picture and its details file. -/
def save (disk : Disk) (out : Path) (index : Nat) (p : Palette) (image : Image) : Saving :=
  let paths := savedImage out index p
  match disk.makeDirectories paths.directory with
  | (.error e, disk) => ⟨.error (.directory e), disk, []⟩
  | (.ok (), disk) =>
    match disk.writePicture paths.image image with
    | (.error e, disk) => ⟨.error (.raster (.output e)), disk, []⟩
    | (.ok (), disk) =>
      let events := [.wrotePicture paths.image]
      match disk.write paths.details (.text p.details) with
      | .error e => ⟨.error (.palette (.file e)), disk, events⟩
      | .ok disk => ⟨.ok paths, disk, events ++ [.wroteDetails paths.details]⟩

/-- The palette of a details file. -/
def readDetails (disk : Disk) (path : Path) : Except PaletteError Palette :=
  match disk.readText path with
  | .error e => .error (.file e)
  | .ok text => Palette.ofDetails text

end Storage

end TrigPainting
