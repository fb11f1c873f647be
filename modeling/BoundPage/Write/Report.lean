import BoundPage.Key
/-!
# What a write did

A write is applied, with a report, or skipped for a reason.  A skipped write changes nothing.
-/
namespace BoundPage

structure WriteReport where
  /-- The variable written to. -/
  target : String
  /-- The text it has now. -/
  value : String
  /-- The dependents whose node was not there. -/
  missing : List NodeKey := []
  /-- The templates that could not be expanded because they had no parent. -/
  detached : List NodeKey := []
  /-- The list items that were made. -/
  materialized : List NodeKey := []
  /-- The objects placed after the write. -/
  placed : List String := []
deriving DecidableEq, Repr

def WriteReport.isClean (r : WriteReport) : Bool := r.missing.isEmpty && r.detached.isEmpty

inductive SkipReason where
  | unknownInstance (id : String)
  | unknownVariable (name : String)
  | notAList (name : String)
  | nothingToInsert
  | notANumber (value : String)
deriving DecidableEq, Repr

def SkipReason.message : SkipReason → String
  | unknownInstance id => "instance '" ++ id ++ "' is not registered"
  | unknownVariable name => "variable '" ++ name ++ "' is not in the store"
  | notAList name => "variable '" ++ name ++ "' does not hold a JSON list"
  | nothingToInsert => "nothing to insert"
  | notANumber value => "'" ++ value ++ "' is not a number"

inductive WriteOutcome where
  | applied (report : WriteReport)
  | skipped (reason : SkipReason)
deriving DecidableEq, Repr

namespace WriteOutcome

def report? : WriteOutcome → Option WriteReport
  | applied r => some r
  | skipped _ => none

def skipReason? : WriteOutcome → Option SkipReason
  | applied _ => none
  | skipped r => some r

def isApplied (o : WriteOutcome) : Bool := o.report?.isSome

def isClean (o : WriteOutcome) : Bool := o.report?.any (·.isClean)

end WriteOutcome
end BoundPage
