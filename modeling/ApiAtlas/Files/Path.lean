import ApiAtlas.Text.Split

/-!
# Paths

A path names a file by the way to it: names with slashes between them. Empty
names and single points stand for the place where one is, and two points for
the place above.
-/

set_option autoImplicit false

namespace ApiAtlas.Path

/-- The names on the way, as they are written. -/
def names (path : String) : List String :=
  (Text.parts '/' path.toList).map String.ofList

/-- Whether a name stands for the place where one is. -/
def isHere (name : String) : Bool :=
  name = "" || name = "."

/-- The names on the way from the place where one is, without those that stand for that place. -/
def properNames (path : String) : List String :=
  (names path).filter fun name => !isHere name

/-- The name of the file itself, unless the path ends at the place above another one or has no
names at all. -/
def fileName? (path : String) : Option String :=
  match (properNames path).getLast? with
  | some ".." => none
  | last => last

/-- What stands behind the last point of a file's name. A point at the start of the name does not
count. -/
def extension? (path : String) : Option String := do
  let name ← fileName? path
  let parts := (Text.parts '.' name.toList).map String.ofList
  match parts with
  | [_] | ["", _] => none
  | _ => parts.getLast?

/-- The path of a file in a directory. -/
def join (directory name : String) : String :=
  if directory = "" || directory.toList.getLast? = some '/' then directory ++ name
  else directory ++ "/" ++ name

end ApiAtlas.Path
