import BoundPage.Config
/-!
# The command line

A command line names a command, with options before or after the operands.  An option is `--name value`, `--name=value`,
`-n value`, `-nvalue` or `-n=value`; flags of one letter may stand together, and after `--` all is operands.  Every
option stands at most once.  The words are taken one after the other: the first that is wrong, or that asks for
something else than a command, decides.
-/
namespace BoundPage

inductive Command where
  /-- Starts a project; its pages go to a directory. -/
  | init (pagesDirectory : String) (force : Bool)
  | replay (page : String) (script : Option String) (output : Option OutputForm)
  | check (page : String) (verbose : Bool)
deriving DecidableEq, Repr

namespace Command

/-- Why a command line leads to no command. -/
inductive NoCommand where
  | help
  | version
  /-- The words are no command line. -/
  | unclear
deriving DecidableEq, Repr

inductive OptionKind where
  | flag
  /-- Takes a value that is accepted. -/
  | value (accepts : String → Bool)
  /-- Ends the command line where it stands. -/
  | halt (reason : NoCommand)

/-- An option of a command: its long name, its letter and its kind. -/
structure OptionSpec where
  name : String
  letter : Char
  kind : OptionKind

/-- The options a command has, and what its operands have to satisfy, in order. -/
structure Grammar where
  options : List OptionSpec
  operands : List (String → Bool) := []

/-- What a command line consists of, as far as it has been read. -/
structure Parts where
  operands : List String := []
  /-- The options, each with its value; flags have none. -/
  options : List (String × Option String) := []
  /-- The option whose value is the next word, and which values it accepts. -/
  awaiting : Option (String × (String → Bool)) := none
  /-- All further words are operands. -/
  operandsOnly : Bool := false

namespace Parts

def has (p : Parts) (name : String) : Bool := p.options.any fun o => o.1 == name

def value? (p : Parts) (name : String) : Option String :=
  (p.options.find? fun o => o.1 == name).bind Prod.snd

/-- Adds an option that is not there yet. -/
def addOption (p : Parts) (name : String) (value : Option String) : Except NoCommand Parts :=
  if p.has name then .error .unclear
  else .ok { p with options := p.options ++ [(name, value)], awaiting := none }

def addValue (p : Parts) (name : String) (accepts : String → Bool) (value : String) : Except NoCommand Parts :=
  if accepts value then p.addOption name (some value) else .error .unclear

/-- The parts of a command line that has come to its end. -/
def finish (p : Parts) : Except NoCommand Parts := if p.awaiting.isSome then .error .unclear else .ok p

end Parts

/-- A text that looks like an option cannot be a value. -/
def isOptionLike (s : String) : Bool :=
  match s.toList with
  | '-' :: _ :: _ => true
  | _ => false

namespace Grammar

/-- The option that a condition singles out. -/
def option (g : Grammar) (condition : OptionSpec → Bool) : Except NoCommand OptionSpec :=
  match g.options.find? condition with
  | some spec => .ok spec
  | none => .error .unclear

/-- Adds an operand, if there is a place for one more and it can stand there. -/
def addOperand (g : Grammar) (p : Parts) (s : String) : Except NoCommand Parts :=
  match g.operands[p.operands.length]? with
  | some accepts => if accepts s then .ok { p with operands := p.operands ++ [s] } else .error .unclear
  | none => .error .unclear

/-- Reads letters that stand together: flags, and at the end an option with the rest as its value. -/
def readLetters (g : Grammar) (p : Parts) : List Char → Except NoCommand Parts
  | [] => .ok p
  | c :: rest => do
    let spec ← g.option (·.letter == c)
    match spec.kind, rest with
    | .halt reason, _ => throw reason
    | .flag, rest => g.readLetters (← p.addOption spec.name none) rest
    | .value accepts, [] => return { p with awaiting := some (spec.name, accepts) }
    | .value accepts, '=' :: value => p.addValue spec.name accepts (String.ofList value)
    | .value accepts, value => p.addValue spec.name accepts (String.ofList value)

def readLong (g : Grammar) (p : Parts) (s : List Char) : Except NoCommand Parts := do
  let name := String.ofList (s.takeWhile (· != '='))
  let spec ← g.option (·.name == name)
  match spec.kind, s.dropWhile (· != '=') with
  | .halt reason, [] => throw reason
  | .flag, [] => p.addOption name none
  | .value accepts, [] => return { p with awaiting := some (name, accepts) }
  | .value accepts, _ :: value => p.addValue name accepts (String.ofList value)
  | _, _ :: _ => throw .unclear

/-- Reads a word that is not the value of the option before it. -/
def readStart (g : Grammar) (p : Parts) (word : String) : Except NoCommand Parts :=
  match word.toList with
  | ['-', '-'] => .ok { p with operandsOnly := true }
  | '-' :: '-' :: s => g.readLong p s
  | '-' :: c :: s => g.readLetters p (c :: s)
  | _ => g.addOperand p word

def readWord (g : Grammar) (p : Parts) (word : String) : Except NoCommand Parts :=
  if p.operandsOnly then g.addOperand p word
  else match p.awaiting with
    | some (name, accepts) => if isOptionLike word then .error .unclear else p.addValue name accepts word
    | none => g.readStart p word

def read (g : Grammar) (words : List String) : Except NoCommand Parts := do
  (← words.foldlM g.readWord {}).finish

end Grammar

/-- A path has at least one character. -/
def isPath (s : String) : Bool := !s.isEmpty

def commonOptions : List OptionSpec := [⟨"verbose", 'v', .flag⟩, ⟨"help", 'h', .halt .help⟩]

/-- What stands before the name of a command. -/
def leadingGrammar : Grammar := { options := ⟨"version", 'V', .halt .version⟩ :: commonOptions }

/-- What follows the name of a command. -/
def grammarOf? (name : String) : Option Grammar :=
  match name with
  | "init" => some { options := [⟨"pages-dir", 'p', .value fun _ => true⟩, ⟨"force", 'f', .flag⟩] ++ commonOptions }
  | "replay" => some
      { options := [⟨"script", 's', .value isPath⟩, ⟨"output", 'o', .value fun s => (OutputForm.named? s).isSome⟩] ++
          commonOptions
        operands := [isPath] }
  | "check" => some { options := commonOptions, operands := [isPath] }
  | _ => none

def ofParts (name : String) (verbose : Bool) (p : Parts) : Except NoCommand Command :=
  match name, p.operands with
  | "init", [] => .ok (.init ((p.value? "pages-dir").getD "pages") (p.has "force"))
  | "replay", [page] => .ok (.replay page (p.value? "script") ((p.value? "output").bind OutputForm.named?))
  | "check", [page] => .ok (.check page (verbose || p.has "verbose"))
  | _, _ => .error .unclear

/-- Help can be asked for in general, about a command and about help itself. -/
def isHelpTopic : List String → Bool
  | [] => true
  | [name] => name == "help" || (grammarOf? name).isSome
  | _ => false

/-- The command that the words of a command line ask for. -/
def ofWords (words : List String) : Except NoCommand Command := do
  let leading ← leadingGrammar.read (words.takeWhile isOptionLike)
  match leading.operandsOnly, words.dropWhile isOptionLike with
  | false, "help" :: topic => throw (if isHelpTopic topic then .help else .unclear)
  | false, name :: rest =>
    match grammarOf? name with
    | some g => ofParts name (leading.has "verbose") (← g.read rest)
    | none => throw .unclear
  | _, _ => throw .unclear

end Command
end BoundPage
