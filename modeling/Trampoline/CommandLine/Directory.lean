/-!
# Directories

Paths, and a directory whose files are known.  A path leads from the root through
directories, one for each of its parts; an empty part and a point stay where they are, and
two points lead to the directory above.

Main definitions:

- `Path.absolute`: a path made to start from the root.
- `Path.withExtension?`: a path with an extension added to its last name.
- `Path.inAncestors`: the paths of a name in a directory and in all above it.
- `Directory.file?`: what stands at the end of a path.
-/

namespace Trampoline.CommandLine

namespace Path

/-- A path that starts from the root, or else from a directory, made to start from the
root. -/
def absolute (directory path : String) : String :=
  if path.toList.head? = some '/' then path else directory ++ "/" ++ path

/-- Characters in reverse without the slashes, and the points between slashes, in front. -/
def dropEmptyParts : List Char → List Char
  | '/' :: rest => dropEmptyParts rest
  | '.' :: '/' :: rest => dropEmptyParts ('/' :: rest)
  | cs => cs
termination_by cs => cs.length

/-- An absolute path up to the end of its last name, in reverse, if it ends with a name. -/
def toLastName? (path : String) : Option (List Char) :=
  let cs := dropEmptyParts path.toList.reverse
  let name := cs.takeWhile (· ≠ '/')
  if name.isEmpty || name = ['.', '.'] then none else some cs

/-- An absolute path with an extension added to its last name, if it ends with a name. -/
def withExtension? (extension path : String) : Option String :=
  (toLastName? path).map fun cs => String.ofList cs.reverse ++ "." ++ extension

/-- Whether the last name of a path has an extension.  A point in front of a name begins
none. -/
def hasExtension (extension path : String) : Bool :=
  let name := path.toList.reverse.takeWhile (· ≠ '/')
  let ending := ('.' :: extension.toList).reverse
  ending.isPrefixOf name && ending.length < name.length

/-- The absolute paths of a name in a directory, given by its parts in reverse, and in all
directories above it. -/
def inAncestors (name : String) : List String → List String
  | [] => ["/" ++ name]
  | part :: above =>
    ("/" ++ "/".intercalate (part :: above).reverse ++ "/" ++ name) :: inAncestors name above

end Path

/-- A directory and the files in it and below it.  Nothing else is known to stand in the
directories above. -/
structure Directory where
  /-- The names from the root to the directory. -/
  location : List String
  /-- The texts of the files under their paths from the directory. -/
  files : List (String × String)

namespace Directory

/-- The place of a file from the root. -/
def locate (d : Directory) (name : String) : List String :=
  d.location ++ name.splitOn "/"

/-- Whether a place from the root is one of a directory: it leads to this directory or on
to a file. -/
def isDirectory (d : Directory) (place : List String) : Bool :=
  place.isPrefixOf d.location ||
    d.files.any fun file =>
      let whole := d.locate file.1
      place.isPrefixOf whole && place.length < whole.length

/-- The place to which the parts of a path lead from another. -/
def follow? (d : Directory) : List String → List String → Option (List String)
  | place, [] => some place
  | place, part :: rest =>
    if !d.isDirectory place then none
    else if part = "" || part = "." then follow? d place rest
    else if part = ".." then follow? d place.dropLast rest
    else follow? d (place ++ [part]) rest

/-- The text of the file at the end of an absolute path, if there is one. -/
def file? (d : Directory) (path : String) : Option String := do
  let place ← d.follow? [] (path.splitOn "/")
  let file ← d.files.find? fun file => d.locate file.1 = place
  return file.2

end Directory

end Trampoline.CommandLine
