import BoundPage.Command.Outcome
import BoundPage.Command.Sample
import BoundPage.Config
/-!
# Starting a project

Writes the standard configuration and the sample page with its script.  A configuration that is there is kept unless it
is to be overwritten; samples that are there are always kept.
-/
namespace BoundPage.Command

def inDirectory (directory name : String) : String := if directory.isEmpty then name else directory ++ "/" ++ name

def createdLine (name : String) : String := "  ✓ Created " ++ name

/-- What has been done so far, and why it could not go on. -/
abbrev Progress := Outcome × Option FileError

/-- Makes the directory of the samples if it is missing. -/
def makePagesDirectory (directory : String) (o : Outcome) : Progress :=
  if o.files.exists? directory then (o, none)
  else match o.files.makeDirectories directory with
    | (files, none) => ({ o with files }.say (createdLine (directory ++ "/")), none)
    | (files, some e) => ({ o with files }, some e)

/-- Writes a file, which is told by its name. -/
def writeFile (path name content : String) (o : Outcome) : Progress :=
  match o.files.write path content with
  | .ok files => ({ o with files }.say (createdLine name), none)
  | .error e => (o, some e)

def writeSample (directory : String) (sample : String × String) (o : Outcome) : Progress :=
  let path := inDirectory directory sample.1
  if o.files.exists? path then (o, none) else writeFile path sample.1 sample.2 o

def writeConfig (o : Outcome) : Progress :=
  writeFile Config.fileName Config.fileName ({} : Config).toJson.pretty o

def nextSteps (directory : String) : List String :=
  let page := directory ++ "/counter.page.json"
  ["", "✅ Project initialized!", "", "Next steps:", "  1. Run: weave check " ++ page,
    "  2. Run: weave replay " ++ page ++ " --script " ++ directory ++ "/counter.script.json"]

/-- Does one thing after the other, up to the first that fails. -/
def inTurn (o : Outcome) : List (Outcome → Progress) → Progress
  | [] => (o, none)
  | step :: steps =>
    match step o with
    | (o, none) => inTurn o steps
    | failed => failed

def startProject (files : Files) (directory : String) (force : Bool) : Outcome :=
  let o := Outcome.start files
  if files.exists? Config.fileName && !force then
    o.sayAll ["⚠️ " ++ Config.fileName ++ " already exists", "Use --force to overwrite"]
  else
    let o := o.say "📝 Initializing Weave project..."
    let (o, error) :=
      inTurn o ([makePagesDirectory directory] ++ samples.map (writeSample directory) ++ [writeConfig])
    match error with
    | none => o.sayAll (nextSteps directory)
    | some e => o.fail e.message

end BoundPage.Command
