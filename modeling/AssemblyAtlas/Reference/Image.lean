import AssemblyAtlas.Disk
import AssemblyAtlas.Text.Quoted

/-!
# Images

An image is the content of an assembly file, with the path it was read from.

* `Image.ofFile` opens a file of a disk and `Image.ofData` takes bytes; neither gives an image
  without bytes;
* `Image.slice` reads a part of an image and never goes beyond its end.
-/

namespace AssemblyAtlas
namespace Reference

open Text

/-- How much of a file is read when it is opened. -/
inductive Prefetch where
  /-- Bytes are read when they are needed. -/
  | metadata
  | entireImage
deriving DecidableEq

/-- The name of a way to open files. -/
def Prefetch.name : Prefetch → String
  | metadata => "Metadata"
  | entireImage => "EntireImage"

/-- The content of an assembly file. -/
structure Image where
  path : Option String
  prefetch : Prefetch
  data : List UInt8
deriving DecidableEq

namespace Image

/-- An image of the bytes. -/
def ofBytes
    (path : Option String)
    (prefetch : Prefetch)
    (data : List UInt8) :
    Except Failure Image :=
  if data.isEmpty then
    .error .empty
  else
    .ok ⟨path, prefetch, data⟩

/-- An image of bytes at hand, which may have been read from a path. -/
def ofData (data : List UInt8) (path : Option String) : Except Failure Image :=
  ofBytes path .entireImage data

/-- The failure to open a directory as a file. -/
def directoryFailure (path : String) : Prefetch → Failure
  | .metadata => .other ("Failed to map '" ++ path ++ "': No such device (os error 19)")
  | .entireImage => .file .isADirectory

/-- The image in a file. -/
def ofFile (disk : Disk) (path : String) (prefetch : Prefetch) : Except Failure Image :=
  match disk.lookup path with
  | .error fault => .error (.file fault)
  | .ok (_, .file text _) => ofBytes (some path) prefetch text.toUTF8.toList
  | .ok (_, .directory) => .error (directoryFailure path prefetch)

/-- The number of bytes. -/
def size (image : Image) : Nat :=
  image.data.length

/-- The bytes from an offset on. -/
def slice (image : Image) (offset length : Nat) : Except Failure (List UInt8) :=
  if offset + length ≤ image.size then
    .ok ((image.data.drop offset).take length)
  else
    .error .outOfBounds

/-- The image starts like an executable file. -/
def isExecutable (image : Image) : Bool :=
  image.data.take 2 == "MZ".toUTF8.toList

/-- The name of the file that the image was read from. -/
def fileName? (image : Image) : Option String :=
  image.path.bind Path.fileName?

/-- The line that describes an image. -/
def describe (image : Image) : String :=
  "BinaryImage \x7b path: " ++ optionInQuotes image.path ++ ", prefetch: " ++ image.prefetch.name
    ++ ", len: " ++ String.ofList (decimal image.size) ++ " \x7d"

end Image

end Reference
end AssemblyAtlas
