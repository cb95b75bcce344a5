/-!
# Paths

A path is written as names with slashes between them.

## Main definitions

- `Path.parts` — the names of a path
- `Path.start` — where a path starts
- `Path.step` — where one more name leads from a directory
- `Path.extension?` — the extension of the file that a path names
-/

namespace ScriptWire

namespace Path

/-- The pieces of a text between slashes; there is always one. -/
def pieces : List Char → List (List Char)
  | [] => [[]]
  | c :: cs =>
    if c = '/' then [] :: pieces cs
    else
      match pieces cs with
      | [] => [[c]]
      | p :: ps => (c :: p) :: ps

/-- The names of a path. A name may be empty, where a slash stands at an end or beside another. -/
def parts (path : String) : List String :=
  (pieces path.toList).map String.ofList

/-- The place that a path starts from: the root if a slash is its first character, and the working
directory otherwise. -/
def start (working : List String) (path : String) : List String :=
  if path.toList.head? = some '/' then [] else working

/-- The name leads nowhere else: it is empty or a single dot. -/
def isIdle (name : String) : Bool :=
  name = "" || name = "."

/-- Where a name leads from a directory that is given by the names from the top down to it. -/
def step (directory : List String) (name : String) : List String :=
  if isIdle name then directory
  else if name = ".." then directory.dropLast
  else directory ++ [name]

/-- The last name of a path that leads somewhere, unless it leads upwards. -/
def fileName? (path : String) : Option String :=
  match ((parts path).filter fun name => !isIdle name).getLast? with
  | some ".." => none
  | name => name

/-- The extension of the file that a path names: what stands after the last dot of its name, unless
that dot is the first character of the name. -/
def extension? (path : String) : Option String := do
  let name ← fileName? path
  let after := name.toList.reverse.takeWhile (· ≠ '.')
  match name.toList.reverse.dropWhile (· ≠ '.') with
  | _ :: _ :: _ => some (String.ofList after.reverse)
  | _ => none

end Path

end ScriptWire
