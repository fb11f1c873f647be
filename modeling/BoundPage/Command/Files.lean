import BoundPage.Table
/-!
# Files

The files that a command can see, as far as it asks for them.  A path is followed one name after the other from the
working directory, or from the root if it starts with a slash; the places of files and directories are lists of names.
-/
namespace BoundPage.Command

/-- Why a file cannot be read or written. -/
inductive FileError where
  | notFound
  | alreadyThere
  | notADirectory
  | isADirectory
  | nameTooLong
deriving DecidableEq, Repr

def FileError.message : FileError → String
  | notFound => "No such file or directory (os error 2)"
  | alreadyThere => "File exists (os error 17)"
  | notADirectory => "Not a directory (os error 20)"
  | isADirectory => "Is a directory (os error 21)"
  | nameTooLong => "File name too long (os error 36)"

structure Files where
  /-- The contents of files, by place. -/
  contents : Table String := ∅
  /-- The places of directories that are known to be there beside those of the files. -/
  directories : List String := []

namespace Files

instance : EmptyCollection Files := ⟨{}⟩

def below (directory name : String) : String := if directory.isEmpty then name else directory ++ "/" ++ name

/-- The directories of the names up to a place, the outermost first. -/
def ancestors (place : String) : List String :=
  let names := place.splitOn "/"
  (List.range names.length).map fun n => "/".intercalate (names.take n)

def isFile (fs : Files) (place : String) : Bool := fs.contents.contains place

/-- The working directory, or a directory around it. -/
def isAround (place : String) : Bool := place.isEmpty || (place.splitOn "/").all (· == "..")

def isInside (place : String) : Bool := !place.startsWith "/" && (place.splitOn "/").head? != some ".."

def isDirectory (fs : Files) (place : String) : Bool :=
  isAround place || place == "/" || fs.directories.contains place ||
    fs.contents.names.any fun f => (ancestors f).contains place

/-- The directory that a place has to be for a path to go on from it. -/
def enter (fs : Files) (place : String) : Except FileError Unit :=
  if fs.isDirectory place then .ok ()
  else if fs.isFile place then .error .notADirectory
  else .error .notFound

/-- The directory around a place; the root is its own. -/
def parentOf (place : String) : String :=
  if place == "/" then place
  else if isAround place then below place ".."
  else (ancestors place).getLast?.getD ""

def maxNameSize : Nat := 255

def maxPathSize : Nat := 4095

def follow (fs : Files) (place name : String) : Except FileError String := do
  fs.enter place
  if name.isEmpty || name == "." then return place
  else if name == ".." then return parentOf place
  else if name.utf8ByteSize > maxNameSize then throw .nameTooLong
  else return below place name

def followAll (fs : Files) (place : String) (names : List String) : Except FileError String :=
  names.foldlM fs.follow place

/-- Where a path starts, and the names to follow from there. -/
def splitPath (path : String) : Except FileError (String × List String) :=
  if path.utf8ByteSize > maxPathSize then .error .nameTooLong
  else match path.splitOn "/" with
    | "" :: name :: names => .ok ("/", name :: names)
    | names => .ok ("", names)

def locate (fs : Files) (path : String) : Except FileError String := do
  let (start, names) ← splitPath path
  fs.followAll start names

def exists? (fs : Files) (path : String) : Bool :=
  match fs.locate path with
  | .ok place => fs.isFile place || fs.isDirectory place
  | .error _ => false

def read (fs : Files) (path : String) : Except FileError String := do
  let place ← fs.locate path
  match fs.contents.get? place with
  | some content => return content
  | none => throw (if fs.isDirectory place then .isADirectory else .notFound)

def write (fs : Files) (path content : String) : Except FileError Files := do
  let place ← fs.locate path
  if fs.isDirectory place then throw .isADirectory
  return { fs with contents := fs.contents.insert place content }

/-- Makes the directory that names lead to, the last name first.  What is around it has to be there already. -/
def makeDirectory (fs : Files) (start : String) (names : List String) : Except FileError Files := do
  match names.dropWhile String.isEmpty with
  | [] => throw .alreadyThere
  | name :: outer =>
    let place ← fs.follow (← fs.followAll start outer.reverse) name
    if name == "." || name == ".." || fs.isFile place || fs.isDirectory place then throw .alreadyThere
    return { fs with directories := fs.directories ++ [place] }

/-- Makes the directory that names lead to, the last name first, if it is missing. -/
def ensureDirectory (fs : Files) (start : String) (names : List String) : Except FileError Files :=
  match fs.makeDirectory start names with
  | .ok fs => .ok fs
  | .error e =>
    match fs.followAll start names.reverse with
    | .ok place => if fs.isDirectory place then .ok fs else .error e
    | .error _ => .error e

/-- Names, the last first, and what is left of them after each step outwards; names that stay where they are go together
with the one before them. -/
def outwards : List String → List (List String)
  | [] => []
  | name :: outer => if name.isEmpty || name == "." then outwards outer else (name :: outer) :: outwards outer

/-- Makes the first directory of a list, and for it those of the rest of the list that are missing; answers the files
also if it fails on the way. -/
def ensureFrom (fs : Files) (start : String) : List (List String) → Files × Option FileError
  | [] => (fs, none)
  | names :: outer =>
    match fs.ensureDirectory start names with
    | .ok fs => (fs, none)
    | .error .notFound =>
      match ensureFrom fs start outer with
      | (fs, some e) => (fs, some e)
      | (fs, none) =>
        match fs.ensureDirectory start names with
        | .ok fs => (fs, none)
        | .error e => (fs, some e)
    | .error e => (fs, some e)

/-- Makes every directory of a path that is missing, as it takes the path: one that ends with a dot has to be there. -/
def makeDirectories (fs : Files) (path : String) : Files × Option FileError :=
  match splitPath path with
  | .error e => (fs, some e)
  | .ok (start, names) => fs.ensureFrom start (names.reverse :: (outwards names.reverse).tail)

/-- The files with one more that is known, if a path leads to it. -/
def withFile (fs : Files) (path content : String) : Files :=
  match fs.locate path with
  | .ok place => { fs with contents := fs.contents.insert place content }
  | .error _ => fs

/-- The files with one more directory that is known, if a path leads to it. -/
def withDirectory (fs : Files) (path : String) : Files :=
  match fs.locate path with
  | .ok place => { fs with directories := fs.directories ++ [place] }
  | .error _ => fs

/-- The files of `fs` that are not in `old` with the same content, by name. -/
def changedSince (fs old : Files) : List (String × String) :=
  (fs.contents.entries.filter fun f => old.contents.get? f.1 != some f.2).mergeSort fun a b => decide (a.1 ≤ b.1)

end Files
end BoundPage.Command
