/-
The command on a real system.

Everything is decided elsewhere: here a host answers what the steps of the command ask
for, and what there is to say goes to the error stream. Files are asked for by texts, so
a path that is no Unicode text leads nowhere.
-/
import ClassLens.Command.Steps

set_option autoImplicit false

namespace ClassLens.Command

/-- Loads what a path leads to. Files that no scan reads are loaded as empty, and what
cannot be read is closed. -/
partial def loadTree (path : String) : IO (Option FileTree) := do
  -- a path that leads nowhere has no real path, which is an error
  let found ← try pure (some (← IO.FS.realPath path)) catch _ => pure none
  let some place := found | return none
  let closed : Access := ⟨some .unopened, true⟩
  if ← place.isDir then
    let listed ← try pure (some (← place.readDir)) catch _ => pure none
    let some listing := listed | return some (.folder closed [])
    let entries ← (listing.toList.map (·.fileName)).filterMapM fun name => do
      return (← loadTree (path ++ "/" ++ name)).map fun tree => (OsText.ofString name, tree)
    return some (.folder .free entries)
  else if Scan.FileKind.ofPath (.ofString path) = .other then
    return some (.file .free ByteArray.empty)
  else
    try return some (.file .free (← IO.FS.readBinFile path))
    catch _ => return some (.file closed ByteArray.empty)

/-- Says something. -/
def say (n : Notice) : IO Unit :=
  IO.eprint n.print

/-- The system that the program runs on. -/
def system : Host IO IO.FS.Handle where
  find path :=
    match path.text? with
    | some text => loadTree text
    | none => return none
  create path :=
    match path.text? with
    | some text => try return some (← IO.FS.Handle.mk text .write) catch _ => return none
    | none => return none
  write handle text := do
    handle.putStr text
    handle.flush
  print text := IO.print text
  warn text := say (.warning text)

end ClassLens.Command

open ClassLens ClassLens.Command in
/-- Runs the command with the words it is given. -/
def main (words : List String) : IO UInt32 := do
  let started ← IO.monoMsNow
  let ending ← execute system (words.map OsText.ofString)
  if ending = .misused then IO.eprint misuseText
  let elapsed := (← IO.monoMsNow) - started
  (ending.notices elapsed).forM say
  return ending.exitCode.toUInt32
