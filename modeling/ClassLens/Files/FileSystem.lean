/-
File systems: where paths lead, and files that are opened to be written.

A path is followed through a tree of files from its root, or from the folder that a
command is run in. That is all that depends on how the path is written.
-/
import ClassLens.Files.FileTree

set_option autoImplicit false

namespace ClassLens

/-- All files, and the place that a path starts from if it does not start from the
root. -/
structure FileSystem where
  root : FileTree
  here : Place

/-- What can be written to. -/
inductive Target where
  | file (place : Place)
  | device (d : Device)
  deriving DecidableEq, Repr

namespace FileSystem

/-- The place that a path starts from. -/
def start (fs : FileSystem) (path : OsText) : Place :=
  if PathText.isAbsolute path then [] else fs.here

/-- The place that a path leads to. The empty path leads nowhere, and neither does
one that is too long. -/
def place? (fs : FileSystem) (path : OsText) : Option Place :=
  if path.isEmpty || PathText.isTooLong path then none
  else fs.root.follow? (fs.start path) (PathText.parts path)

/-- What a path leads to. -/
def find? (fs : FileSystem) (path : OsText) : Option FileTree :=
  (fs.place? path).bind fs.root.at?

/-- Opens what a path leads to, to write to it. A file that is there is emptied, and
one that is not there is made. -/
def create? (fs : FileSystem) (path : OsText) : Option (Target × FileSystem) := do
  let place ← fs.place? path
  if !fs.root.canWrite place then none
  else match fs.root.at? place with
    | some (.device d) => return (.device d, fs)
    | _ => return (.file place, { fs with root := fs.root.putFile place ByteArray.empty })

/-- Writes behind what the file at a place holds. -/
def append (fs : FileSystem) (place : Place) (content : ByteArray) : FileSystem :=
  let own := (fs.root.contentAt? place).getD ByteArray.empty
  { fs with root := fs.root.putFile place (own ++ content) }

end FileSystem

end ClassLens
