/-
Paths as texts: names with slashes between them.

A path is only looked at as text where a person sees it or wrote it: to follow
it through a tree of files, to find what kind of file it names, and to name what
was found below it. Empty names and single dots stand for where one is already,
two dots for one level up. A path that starts with a slash starts from the root.
-/
import ClassLens.Files.OsText

set_option autoImplicit false

namespace ClassLens.PathText

/-- The byte between names. -/
def slash : UInt8 := 0x2f

/-- The byte in front of an extension. -/
def dot : UInt8 := 0x2e

/-- The parts of a path, between its slashes. -/
def parts : OsText → List OsText
  | [] => [[]]
  | b :: rest =>
    if b = slash then [] :: parts rest
    else match parts rest with
      | [] => [[b]]
      | part :: more => (b :: part) :: more

/-- Whether a part stands for where one is already. -/
def isHere (part : OsText) : Bool :=
  part == [] || part == [dot]

/-- Whether a path starts from the root. -/
def isAbsolute (path : OsText) : Bool :=
  path.head? == some slash

/-- The number of bytes that a path may have. -/
def maxPathSize : Nat := 4095

/-- The number of bytes that a name may have. -/
def maxNameSize : Nat := 255

/-- Whether a path or a name in it has too many bytes. -/
def isTooLong (path : OsText) : Bool :=
  maxPathSize < path.length || (parts path).any fun part => maxNameSize < part.length

/-- The part that stands for one level up. -/
def levelUp : OsText := [dot, dot]

/-- The name that a path ends with, unless it ends going up. -/
def lastName? (path : OsText) : Option OsText :=
  ((parts path).filter fun part => !isHere part).getLast?.filter (· != levelUp)

/-- What stands behind the last dot of a name. A dot that a name starts with
does not count. -/
def suffix? (name : OsText) : Option OsText :=
  let back := name.reverse
  match back.dropWhile (· != dot) with
  | _ :: _ :: _ => some (back.takeWhile (· != dot)).reverse
  | _ => none

/-- What stands behind the last dot of the name that a path ends with. -/
def extension? (path : OsText) : Option OsText :=
  (lastName? path).bind suffix?

/-- The path of a name in a folder. -/
def under (folder name : OsText) : OsText :=
  if folder.getLast? = some slash then folder ++ name else folder ++ slash :: name

/-- The path of what some names lead to from a folder. -/
def below (folder : OsText) (names : List OsText) : OsText :=
  names.foldl under folder

/-- Whether a text ends with another. -/
def endsWith (text ending : String) : Bool :=
  ending.toList.isSuffixOf text.toList

end ClassLens.PathText
