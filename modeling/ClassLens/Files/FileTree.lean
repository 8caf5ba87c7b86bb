/-
Trees of files: what is at a place, and what a new file changes.

A tree has what a command can see. Something that is listed may still be closed to
it, or break off while it is read, and whether it may be changed is another matter
again. A folder that cannot be entered is one without entries, and a link is what
it leads to.

A place is the list of names that lead to it from the root of the tree; it says
nothing of whether anything is there.
-/
import ClassLens.Files.PathText

set_option autoImplicit false

namespace ClassLens

/-! ## Trees -/

/-- Why something cannot be read. -/
inductive ReadFault where
  | unopened
  /-- It can be opened, but it does not give all that it has. -/
  | broken
  deriving DecidableEq, Repr

/-- What may be done with a file or a folder: whether reading it fails, and whether
it may be changed. Reading a folder is listing its entries, and changing it is
putting entries in it. -/
structure Access where
  fault? : Option ReadFault
  isWritable : Bool
  deriving DecidableEq, Repr

/-- Everything may be done with what is new. -/
def Access.free : Access := ⟨none, true⟩

/-- Reads a file with some content. -/
def Access.read (a : Access) (content : ByteArray) : Except ReadFault ByteArray :=
  match a.fault? with
  | some fault => .error fault
  | none => .ok content

/-- A thing among the files that takes what is written to it, and has nothing to be
read. -/
inductive Device where
  | null
  /-- What is written to it is printed. -/
  | console
  deriving DecidableEq, Repr

/-- A file, a device, or a folder of named trees in any order. -/
inductive FileTree where
  | file (access : Access) (content : ByteArray)
  | device (d : Device)
  | folder (access : Access) (entries : List (OsText × FileTree))

/-- The names that lead to something from the root of a tree. -/
abbrev Place := List OsText

namespace FileTree

/-- A folder with nothing in it. -/
def empty : FileTree := folder .free []

/-- What a tree holds directly. A file holds nothing. -/
def entries : FileTree → List (OsText × FileTree)
  | folder _ entries => entries
  | file _ _ | device _ => []

/-- Whether a tree is a folder. -/
def isFolder : FileTree → Bool
  | folder _ _ => true
  | file _ _ | device _ => false

/-! ## Places -/

/-- What is at a place. -/
def at? : FileTree → Place → Option FileTree
  | t, [] => some t
  | t, name :: rest =>
    match t.entries.lookup name with
    | some next => next.at? rest
    | none => none

/-- The bytes of the file at a place. -/
def contentAt? (t : FileTree) (place : Place) : Option ByteArray :=
  match t.at? place with
  | some (file _ content) => some content
  | _ => none

/-- Whether there is a folder at a place. -/
def hasFolder (t : FileTree) (place : Place) : Bool :=
  (t.at? place).any isFolder

/-- Follows the parts of a path from a place. Every part is looked up in a
folder, so only what the last part names may be missing. The root is what is above
the root. -/
def follow? (t : FileTree) : Place → List OsText → Option Place
  | place, [] => some place
  | place, part :: rest =>
    if !t.hasFolder place then none
    else if PathText.isHere part then t.follow? place rest
    else if part == PathText.levelUp then t.follow? place.dropLast rest
    else t.follow? (place ++ [part]) rest

/-- Whether a file at a place can be opened to be written. If there is none, the
folder that it is to be in must take it. -/
def canWrite (t : FileTree) (place : Place) : Bool :=
  match t.at? place with
  | some (file access _) => access.isWritable
  | some (device _) => true
  | some (folder _ _) => false
  | none =>
    match t.at? place.dropLast with
    | some (folder access _) => access.isWritable
    | _ => false

/-! ## Changes -/

/-- Puts a tree under a name, in the place of what had the name. -/
def setEntry (name : OsText) (t : FileTree) :
    List (OsText × FileTree) → List (OsText × FileTree)
  | [] => [(name, t)]
  | (own, old) :: rest =>
    if own == name then (name, t) :: rest else (own, old) :: setEntry name t rest

/-- Changes what is at a place. Folders on the way are made where there are
none. -/
def alter (change : Option FileTree → FileTree) : Place → Option FileTree → FileTree
  | [], here => change here
  | name :: rest, some (folder access entries) =>
    folder access (setEntry name (alter change rest (entries.lookup name)) entries)
  | name :: rest, _ => folder .free [(name, alter change rest none)]

/-- A file with some content. What may be done with a file that was there may be
done with it. -/
def withContent (content : ByteArray) : Option FileTree → FileTree
  | some (file access _) => file access content
  | _ => file .free content

/-- Puts a file at a place. -/
def putFile (t : FileTree) (place : Place) (content : ByteArray) : FileTree :=
  alter (withContent content) place (some t)

/-- Makes a folder at a place, unless there is one already. -/
def makeFolder (t : FileTree) (place : Place) : FileTree :=
  alter (fun
    | some (folder access entries) => folder access entries
    | _ => empty) place (some t)

/-! ## Order -/

/-- Named things in the order of their names. -/
def sortByName {α : Type} (l : List (OsText × α)) : List (OsText × α) :=
  l.mergeSort fun a b => a.1 ≤ b.1

end FileTree

end ClassLens
