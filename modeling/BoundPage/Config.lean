import BoundPage.Options
import BoundPage.Json.Printer
/-!
# Configuration

The file beside a project's pages: the options of the pages, the level of the log and the form in which a replay shows
the page at the end.
-/
namespace BoundPage
open Json (Document)
open Json.Decode

inductive OutputForm where
  /-- An outline. -/
  | tree
  | json
deriving DecidableEq, Repr

namespace OutputForm

def name : OutputForm → String
  | tree => "tree"
  | json => "json"

def named? (s : String) : Option OutputForm :=
  if s = tree.name then some tree else if s = json.name then some json else none

end OutputForm

structure Config where
  options : Options := {}
  logLevel : Option String := none
  output : OutputForm := .tree
deriving DecidableEq, Repr

namespace Config

def fileName : String := "weave.config.json"

def ofDocument? (d : Document) : Option Config := do
  let [options, logLevel, output] ← record ["runtime", "logLevel", "output"] d | none
  return {
    options := ← defaulted {} Options.ofDocument? options
    logLevel := ← defaulted none (nullable string) logLevel
    output := ← defaulted .tree (choice OutputForm.named?) output }

def ofText? (text : String) : Option Config := Json.Decode.ofText? ofDocument? text

/-- A missing log level is left out. -/
def toJson (c : Config) : Json :=
  .obj ([("runtime", c.options.toJson)] ++ (c.logLevel.map fun l => ("logLevel", Json.str l)).toList ++
    [("output", .str c.output.name)])

/-- The log level, which is that of warnings if none is set. -/
def logFilter (c : Config) : String := c.logLevel.getD "warn"

end Config
end BoundPage
