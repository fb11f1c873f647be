import BoundPage.Command.Arguments
import BoundPage.Command.Check
import BoundPage.Command.Init
import BoundPage.Command.Replay
/-!
# Running a command line
-/
namespace BoundPage.Command

/-- How a program ends: what it wrote, the files as they are then, and its exit code. -/
structure Ending where
  output : String := ""
  errors : String := ""
  files : Files
  exitCode : UInt32 := 0

def usage : String := "Usage: weave [-v] init [-p DIR] [-f] | replay PAGE [-s SCRIPT] [-o tree|json] | check PAGE\n"

def versionLine : String := "weave 0.1.0\n"

def Outcome.ending (o : Outcome) : Ending := ⟨o.output, o.errors, o.files, if o.failed then 1 else 0⟩

/-- Carries out a command on the files of the working directory. -/
def run (files : Files) : Command → Outcome
  | .init directory force => startProject files directory force
  | .replay page script output => replayScript files page script output
  | .check page verbose => checkPage files page verbose

/-- The paths a command may ask for, and every path on the way to them. -/
def pathsOf (command : Command) : List String :=
  let paths : List String := match command with
    | .init directory _ => [Config.fileName, directory] ++ samples.map (fun s => inDirectory directory s.1)
    | .replay page script _ => Config.fileName :: page :: script.toList
    | .check page _ => [page]
  paths.flatMap fun path => Files.ancestors path ++ [path]

/-- The paths a command line may ask for. -/
def pathsOfWords (words : List String) : List String :=
  match Command.ofWords words with
  | .ok command => pathsOf command
  | .error _ => []

/-- Carries out a command line.  Without a working directory no command can be carried out, but a command line can be
wrong. -/
def runWords (files : Option Files) (words : List String) : Ending :=
  let known := files.getD ∅
  match Command.ofWords words with
  | .error .unclear => { errors := "error: invalid command line\n" ++ usage, files := known, exitCode := 2 }
  | .error .help => { output := usage, files := known }
  | .error .version => { output := versionLine, files := known }
  | .ok command =>
    match files with
    | some files => (run files command).ending
    | none =>
      { errors := "Error: Cannot get current directory: " ++ FileError.notFound.message ++ "\n"
        files := known
        exitCode := 1 }

end BoundPage.Command
