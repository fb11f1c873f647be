import BoundPage.Command.Load
import BoundPage.Command.Outcome
import BoundPage.Markup.Outline
/-!
# Replaying a script

Runs a script against a recorded page.  Every step has a line on the second output, with what was wrong below it; the
page as it is at the end goes to the output.
-/
namespace BoundPage.Command
open Recording (Step)

def isCleanAction : ActionOutcome → Bool
  | .flag => true
  | .write o => o.isClean
  | .message _ (.ok _) => true
  | .message _ (.error _) => false
  | .invalid _ => false
  | .unknown _ => false

def describeWrite : WriteOutcome → String
  | .skipped reason => "skipped: " ++ reason.message
  | .applied r => "unrendered nodes: " ++ ", ".intercalate ((r.missing ++ r.detached).map (·.text))

/-- What was wrong with an action; nothing is said of one that was clean. -/
def describeAction : ActionOutcome → List String
  | .write o => if o.isClean then [] else [describeWrite o]
  | .message handler (.error e) => [handler ++ ": " ++ e.message]
  | .invalid e => [e.message]
  | .unknown name => ["unknown action '" ++ name ++ "'"]
  | .flag => []
  | .message _ (.ok _) => []

/-- A number in a column of at least three characters. -/
def inColumn (n : Nat) : String :=
  let s := toString n
  String.ofList (List.replicate (3 - s.length) ' ') ++ s

/-- The line of a step, and what was wrong with it. -/
def stepLines (index : Nat) (label : String) (clean : Bool) (problems : List String) : List String :=
  ("  " ++ (if clean then "✓" else "⚠") ++ " " ++ inColumn (index + 1) ++ " " ++ label) :: problems.map ("      " ++ ·)

/-- The lines of a result, unless the step failed. -/
def resultLines (index : Nat) (label : String) : Step.Result → Except String (List String)
  | .interaction r =>
    .ok (stepLines index label (r.outcomes.all isCleanAction) (r.outcomes.flatMap describeAction))
  | .writes os =>
    .ok (stepLines index label (os.all (·.isClean)) ((os.filter fun o => !o.isClean).map describeWrite))
  | .tornDown found => .ok (stepLines index label found [])
  | .unknownInstance id => .error (Step.unknownInstanceMessage id)

/-- Runs steps from an index on, up to the first that fails. -/
def runSteps (fallback : String) (index : Nat) (g : Recording.Page.PageEngine) (o : Outcome) :
    List Step → Recording.Page.PageEngine × Outcome
  | [] => (g, o)
  | step :: rest =>
    let r := step.run fallback g
    match resultLines index step.label r.answer with
    | .ok lines => runSteps fallback (index + 1) r.state (o.noteAll lines) rest
    | .error message => (r.state, o.fail message)

/-- The line of an instance whose external children were placed at the beginning. -/
def placedLines (p : String × List String) : List String :=
  if p.2.isEmpty then [] else ["  ✓ [" ++ p.1 ++ "] placed " ++ ", ".intercalate p.2]

/-- The page in the form that is asked for. -/
def shown (form : OutputForm) (surface : Surface) : String :=
  match form with
  | .tree => Markup.outline surface.markup
  | .json => (Markup.listToJson surface.markup).pretty ++ "\n"

def replayScript (files : Files) (path : String) (script : Option String) (output : Option OutputForm) : Outcome :=
  let o := Outcome.start files
  o.orFail id (loadConfig files) fun config =>
  o.orFail LoadError.message (loadPage files path) fun page =>
  o.orFail LoadError.message (loadScript files script) fun steps =>
    let o := o.note ("▶ Replaying " ++ path ++ " (" ++ toString steps.length ++ " steps)")
    let placing := Recording.Page.refreshAll (page.engine config.options)
    let o := o.noteAll (placing.answer.flatMap placedLines)
    let (g, o) := runSteps page.defaultInstance 0 placing.state o steps
    if o.failed then o else { o with output := o.output ++ shown (output.getD config.output) g.surface }

end BoundPage.Command
