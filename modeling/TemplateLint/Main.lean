import TemplateLint.Command.Elapsed
import TemplateLint.Command.Run

/-!
The program: takes a snapshot of the working directory, runs the command over it, and carries out
what the run has written. The time it shows is the one the snapshot took.
-/

namespace TemplateLint

open Files (FileTree)

/-- A file as the run sees it; of files that no run reads only their name counts. -/
def snapshotFile (entry : IO.FS.DirEntry) : IO FileTree := do
  if Command.mayRead entry.fileName then
    let bytes ← try IO.FS.readBinFile entry.path catch _ => return .binary
    match String.fromUTF8? bytes with
    | some text => return .text text
    | none => return .binary
  else return .binary

/-- Files and directories, without links. A directory that cannot be read is empty. -/
partial def snapshot (entries : Array IO.FS.DirEntry) : IO (List (String × FileTree)) :=
  entries.toList.filterMapM fun entry => do
    match (← entry.path.symlinkMetadata).type with
    | .dir =>
      let below ← try entry.path.readDir catch _ => pure #[]
      return some (entry.fileName, .directory (← snapshot below))
    | .file => return some (entry.fileName, ← snapshotFile entry)
    | _ => return none

end TemplateLint

open TemplateLint in
def main (arguments : List String) : IO UInt32 := do
  let started ← IO.monoNanosNow
  let directory ← IO.currentDir
  let files ← snapshot (← directory.readDir)
  let workspace : Command.Workspace := ⟨directory.toString, .directory files⟩
  let elapsed := Command.elapsedText ((← IO.monoNanosNow) - started)
  let outcome := Command.run arguments workspace elapsed
  for file in outcome.written do
    IO.FS.writeFile file.path file.content
  for line in outcome.stderr do
    IO.eprintln line
  IO.print outcome.stdout
  return outcome.status.toUInt32
