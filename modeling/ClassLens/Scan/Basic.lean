/-
Scanning: finding the classes below a path.

A path names a class file, an archive, or a folder that is searched depth first
in the order of names. Files of other kinds are passed over in a folder and
refused as an input. The description of a module has the form of a class file
and is none, so what has a name that ends as that of one is passed over wherever
it stands, unread.

How archives are opened is a parameter of the search, because the search has no
part in it: it takes the entries that it is given, in the order of their names.
-/
import ClassLens.Archive.Basic
import ClassLens.Files.FileTree
import ClassLens.Scan.Source
import ClassLens.Scan.Visit

set_option autoImplicit false

namespace ClassLens.Scan

/-! ## Failures -/

/-- Why a scan ends early: what could not be done, and the cause of it. -/
inductive Failure where
  | unsupported (path : OsText)
  /-- The listing of a folder cannot be opened. -/
  | cannotList (path : OsText)
  /-- The listing of a folder breaks off. -/
  | cannotListEntry (path : OsText)
  | cannotRead (path : OsText) (cause : ReadFault)
  | cannotOpen (path : OsText)
  /-- What was read is no archive, or not one that can be opened. -/
  | cannotOpenArchive (path : OsText) (cause : Archive.Fault)
  | cannotParse (path : OsText) (cause : ClassFile.LoadError)
  | cannotReadEntry (path : OsText) (name : String) (cause : Archive.ContentFault)
  | cannotParseEntry (path : OsText) (name : String) (cause : ClassFile.LoadError)
  deriving DecidableEq, Repr

/-- What a failure says could not be done. The cause is told apart from it. -/
def Failure.message : Failure → String
  | unsupported path => "unsupported input file: " ++ path.lossy
  | cannotList path => "failed to read directory " ++ path.lossy
  | cannotListEntry path => "failed to read entry under " ++ path.lossy
  | cannotRead path _ => "failed to read " ++ path.lossy
  | cannotOpen path => "failed to open " ++ path.lossy
  | cannotOpenArchive path _ => "failed to read " ++ path.lossy
  | cannotParse path _ => "failed to parse " ++ path.lossy
  | cannotReadEntry path name _ => "failed to read " ++ path.lossy ++ ":" ++ name
  | cannotParseEntry path name _ => "failed to parse " ++ path.lossy ++ ":" ++ name

/-! ## Files -/

/-- What a file is, by its extension. -/
inductive FileKind where
  | classFile
  | archive
  | other
  deriving DecidableEq, Repr

/-- The kind of a file at a path. -/
def FileKind.ofPath (path : OsText) : FileKind :=
  match (PathText.extension? path).bind OsText.text? with
  | some "class" => .classFile
  | some "jar" => .archive
  | _ => .other

/-- Whether a name ends as that of a module's description. -/
def isModuleInfo (name : String) : Bool :=
  PathText.endsWith name "module-info.class"

/-- Reads a class file. -/
def visitClassFile (path : OsText) (content : Except ReadFault ByteArray) : Visit Failure Source :=
  if isModuleInfo path.lossy then .nothing
  else match content with
    | .error fault => .fail (.cannotRead path fault)
    | .ok bytes =>
      match ClassFile.load bytes with
      | .error cause => .fail (.cannotParse path cause)
      | .ok loaded => .one (.classFile ⟨path.lossy, bytes.size, loaded⟩)

/-- The entries of an archive that are classes, in the order of their names. -/
def classEntries (entries : List Archive.Entry) : List Archive.Entry :=
  (entries.filter fun e =>
    !e.isFolder && PathText.endsWith e.name ".class" && !isModuleInfo e.name).mergeSort
      fun a b => a.name ≤ b.name

/-- Reads an entry of an archive. -/
def readEntry (path : OsText) (e : Archive.Entry) : Except Failure ReadClass :=
  match e.content with
  | .error fault => .error (.cannotReadEntry path e.name fault)
  | .ok bytes =>
    match ClassFile.load bytes with
    | .error cause => .error (.cannotParseEntry path e.name cause)
    | .ok loaded => .ok ⟨e.name, e.size, loaded⟩

/-- The entries of an archive, or why it cannot be opened. -/
abbrev Opener := ByteArray → Except Archive.Fault (List Archive.Entry)

/-- Reads an archive. Its entries are read once all of them are opened. -/
def visitArchive (opener : Opener) (path : OsText) (content : Except ReadFault ByteArray) :
    Visit Failure Source :=
  match content with
  | .error .unopened => .fail (.cannotOpen path)
  | .error .broken => .fail (.cannotRead path .broken)
  | .ok bytes =>
    match opener bytes with
    | .error fault => .fail (.cannotOpenArchive path fault)
    | .ok entries =>
      -- the archive is a source even if one of its entries fails, for the sake of
      -- the warnings that the entries before it gave
      let read := Visit.all (fun e => .ofExcept (readEntry path e)) (classEntries entries)
      ⟨[.archive path.lossy bytes.size read.found], read.failure⟩

/-- Reads a file of a folder. A file of another kind is passed over. -/
def visitFile (opener : Opener) (path : OsText) (content : Except ReadFault ByteArray) :
    Visit Failure Source :=
  match FileKind.ofPath path with
  | .classFile => visitClassFile path content
  | .archive => visitArchive opener path content
  | .other => .nothing

/-! ## Folders -/

/-- What a folder has at a path is visited in the order of names, once all of it is
listed. -/
def visitFolder (path : OsText) (access : Access)
    (visits : List (OsText × (Unit → Visit Failure Source))) : Visit Failure Source :=
  match access.fault? with
  | some .unopened => .fail (.cannotList path)
  | some .broken => .fail (.cannotListEntry path)
  | none => Visit.all (fun e => e.2 ()) (FileTree.sortByName visits)

mutual

/-- Visits the files of a tree that stands at a path, depth first. -/
def visitTree (opener : Opener) (path : OsText) : FileTree → Visit Failure Source
  | .file access content => visitFile opener path (access.read content)
  | .device _ => visitFile opener path (.ok ByteArray.empty)
  | .folder access entries => visitFolder path access (entryVisits opener path entries)

/-- The visits of the entries of a folder, by their names. -/
def entryVisits (opener : Opener) (path : OsText) :
    List (OsText × FileTree) → List (OsText × (Unit → Visit Failure Source))
  | [] => []
  | (name, t) :: rest =>
    (name, fun _ => visitTree opener (PathText.under path name) t) :: entryVisits opener path rest

end

/-! ## Inputs -/

/-- What a scan came to. -/
structure Findings where
  sources : List Source
  /-- Whether the input is itself the file that was read. -/
  isTarget : Bool
  failure : Option Failure
  deriving DecidableEq, Repr

namespace Findings

/-- The artifacts of the sources. The input has a role among them if it is one
of them. -/
def artifacts (f : Findings) : List Report.Artifact :=
  artifactsFrom (if f.isTarget then [Report.analysisTarget] else []) 0 f.sources

end Findings

/-- Scans an input that is no folder. -/
def scanFile (path : OsText) (visit : Visit Failure Source) : Findings :=
  if FileKind.ofPath path = .other then ⟨[], true, some (.unsupported path)⟩
  else ⟨visit.found, true, visit.failure⟩

/-- Scans what a path was found to lead to. Nothing there is treated as a file
that cannot be opened. -/
def scan (opener : Opener) (found : Option FileTree) (path : OsText) : Findings :=
  match found with
  | none => scanFile path (visitFile opener path (.error .unopened))
  | some t =>
    let v := visitTree opener path t
    if t.isFolder then ⟨v.found, false, v.failure⟩ else scanFile path v

end ClassLens.Scan
