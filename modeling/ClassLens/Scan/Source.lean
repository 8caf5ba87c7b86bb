/-
Where classes come from: class files, and archives of class files.

What a scan finds is a list of sources in the order they were read in. Classes,
warnings and artifacts are views of that list. An artifact of an archive entry
names its archive by its position among the artifacts, and a position is known
only when all artifacts before it are: it is counted when the list is written
out, and is not a part of a source.
-/
import ClassLens.ClassFile.Load
import ClassLens.Report.Sarif
import ClassLens.NatSum

set_option autoImplicit false

namespace ClassLens.Scan

/-- A class that was read, with the name and the size of what it was read
from. -/
structure ReadClass where
  name : String
  size : Nat
  loaded : ClassFile.Loaded
  deriving DecidableEq, Repr

/-- A class file, or an archive with its class entries. -/
inductive Source where
  | classFile (found : ReadClass)
  | archive (path : String) (size : Nat) (found : List ReadClass)
  deriving DecidableEq, Repr

namespace Source

/-- The classes of a source with what they were read from. -/
def found : Source → List ReadClass
  | classFile c => [c]
  | archive _ _ l => l

/-- The length that is given for a size. Lengths are signed numbers of 64 bits,
and the size of an entry is what its archive says, so it may be beyond them. -/
def lengthOf (size : Nat) : Int :=
  (size : Int).bmod UInt64.size

/-- The name of an entry of an archive among all that can be named. -/
def entryUri (path name : String) : String :=
  "jar:" ++ path ++ "!/" ++ name

/-- The artifacts of a source, the first of which has the given position. -/
def artifacts (roles : List String) (position : Nat) : Source → List Report.Artifact
  | classFile c => [⟨c.name, lengthOf c.size, none, roles⟩]
  | archive path size l =>
    ⟨path, lengthOf size, none, roles⟩ ::
      l.map fun c => ⟨entryUri path c.name, lengthOf c.size, some position, []⟩

end Source

/-- The classes of some sources. -/
def classes (sources : List Source) : List Class :=
  (sources.flatMap Source.found).map (·.loaded.loadedClass)

/-- The number of classes that were read, counted source by source. -/
def classCount (sources : List Source) : Nat :=
  natSum (sources.map fun s => s.found.length)

/-- The warnings that reading some sources gave. -/
def warnings (sources : List Source) : List String :=
  (sources.flatMap Source.found).flatMap (·.loaded.warnings)

/-- The artifacts of some sources, the first of which has the given
position. -/
def artifactsFrom (roles : List String) : Nat → List Source → List Report.Artifact
  | _, [] => []
  | position, s :: rest =>
    let own := s.artifacts roles position
    own ++ artifactsFrom roles (position + own.length) rest

end ClassLens.Scan
