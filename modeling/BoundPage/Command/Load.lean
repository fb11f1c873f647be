import BoundPage.Command.Files
import BoundPage.Config
import BoundPage.Recording.Script
/-!
# Loading files
-/
namespace BoundPage.Command
open Recording (Page)

/-- Why a recorded page or a script cannot be used. -/
inductive LoadError where
  | unreadable (path : String) (error : FileError)
  | malformed (path : String)
  | noInstances (path : String)
deriving DecidableEq, Repr

def LoadError.message : LoadError → String
  | unreadable path error => "Failed to read " ++ path ++ ": " ++ error.message
  | malformed path => "Failed to parse " ++ path ++ ": malformed JSON"
  | noInstances path => path ++ " declares no instances"

def readText (fs : Files) (path : String) : Except LoadError String :=
  (fs.read path).mapError (LoadError.unreadable path)

def loadPage (fs : Files) (path : String) : Except LoadError Page := do
  match Page.ofText? (← readText fs path) with
  | .ok page => return page
  | .error .malformed => throw (.malformed path)
  | .error .noInstances => throw (.noInstances path)

/-- The steps of a script; without a script there are none. -/
def loadScript (fs : Files) (path : Option String) : Except LoadError (List Recording.Step) :=
  match path with
  | none => .ok []
  | some path => do
    match Recording.Step.listOfText? (← readText fs path) with
    | some steps => return steps
    | none => throw (.malformed path)

/-- The configuration of the working directory; without a file it is the standard one. -/
def loadConfig (fs : Files) : Except String Config :=
  if fs.exists? Config.fileName then
    match fs.read Config.fileName with
    | .error e => .error e.message
    | .ok text => match Config.ofText? text with
      | some config => .ok config
      | none => .error "malformed JSON"
  else .ok {}

end BoundPage.Command
