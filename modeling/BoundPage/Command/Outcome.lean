import BoundPage.Command.Files
/-!
# What a command does

Lines on the two outputs, the files as they are afterwards, and whether the command failed.  A failed command shows its
error at the end of the second output.
-/
namespace BoundPage.Command

structure Outcome where
  output : String := ""
  errors : String := ""
  files : Files
  failed : Bool := false

namespace Outcome

def start (files : Files) : Outcome := { files }

def say (o : Outcome) (line : String) : Outcome := { o with output := o.output ++ line ++ "\n" }

def note (o : Outcome) (line : String) : Outcome := { o with errors := o.errors ++ line ++ "\n" }

def sayAll (o : Outcome) (lines : List String) : Outcome := lines.foldl say o

def noteAll (o : Outcome) (lines : List String) : Outcome := lines.foldl note o

def fail (o : Outcome) (message : String) : Outcome :=
  { (o.noteAll ["", "Error: " ++ message, ""]) with failed := true }

/-- Goes on with a result, or ends with the message of its error. -/
def orFail {ε α : Type} (o : Outcome) (message : ε → String) (r : Except ε α) (next : α → Outcome) : Outcome :=
  match r with
  | .ok a => next a
  | .error e => o.fail (message e)

end Outcome
end BoundPage.Command
