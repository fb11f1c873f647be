import BoundPage.Command.Load
import BoundPage.Command.Outcome
import BoundPage.Recording.Check
/-!
# Checking a page file
-/
namespace BoundPage.Command
open Recording (Finding)

/-- The line of a reference that leads nowhere. -/
def problemLine (f : Finding) : String :=
  "  ✗ [" ++ f.instanceId ++ "] " ++ f.owner ++ " → " ++ f.key ++ " not found"

def checkPage (files : Files) (path : String) (verbose : Bool) : Outcome :=
  let o := (Outcome.start files).say ("🔍 Checking " ++ path)
  o.orFail LoadError.message (loadPage files path) fun page =>
    let resolved := page.resolved
    let problems := page.problems
    let o := o.sayAll ((if verbose then resolved.map ("  ✓ " ++ ·) else []) ++ problems.map problemLine ++
      ["", "   Instances: " ++ toString page.instances.length, "   Keys resolved: " ++ toString resolved.length])
    if problems.isEmpty then o.say "   ✓ No issues found!"
    else o.fail (toString problems.length ++ " unresolved keys")

end BoundPage.Command
