import BoundPage.Command.Run
/-!
# The program

Gathers what the command line asks for from the file system, carries the command out, and writes what has changed.
-/
namespace BoundPage.Program
open Command

/-- Adds what is at a path. -/
def look (isDirectory : String → IO Bool) (fs : Files) (path : String) : IO Files := do
  if path.isEmpty then return fs
  if ← isDirectory path then return fs.withDirectory path
  try
    return fs.withFile path (← IO.FS.readFile path)
  catch _ => return fs

/-- The files of the working directory that the words ask for, if there is a working directory. -/
def gather (words : List String) : IO (Option Files) := do
  try
    let here ← IO.currentDir
    return some (← (pathsOfWords words).foldlM (look fun path => (here / path).isDir) ∅)
  catch _ => return none

/-- Writes what a command changed. -/
def store (old new : Files) : IO Unit := do
  for directory in new.directories do
    unless old.directories.contains directory do IO.FS.createDirAll directory
  for (place, content) in new.changedSince old do
    IO.FS.writeFile place content

end BoundPage.Program

open BoundPage BoundPage.Program in
/-- Carries out the command line. -/
def main (words : List String) : IO UInt32 := do
  let files ← gather words
  let ending := Command.runWords files words
  if let some old := files then store old ending.files
  IO.print ending.output
  IO.eprint ending.errors
  return ending.exitCode
