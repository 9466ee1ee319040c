import ApiAtlas.Files.Path
import ApiAtlas.Module

/-!
# The role of a graph

A graph holds either the symbols of its own module or what its module adds to
another one. Which of both it does is written in the name of its file: the name
of the module, and behind an at sign that of the module to which it adds.
-/

set_option autoImplicit false

namespace ApiAtlas

/-- What a graph holds. -/
inductive GraphRole
  /-- The symbols of its own module. -/
  | main
  /-- What its module adds to another module. -/
  | extending (module : String)
deriving DecidableEq, Repr

namespace GraphRole

/-- Whether a graph holds the symbols of its own module. -/
def isMain : GraphRole → Bool
  | main => true
  | extending _ => false

/-- The module to which a graph adds. -/
def extendedModule? : GraphRole → Option String
  | main => none
  | extending module => some module

/-- A file's name without the endings of graph files. -/
def stem (name : String) : String :=
  ((Text.withoutEnding? ".symbols.json" name).or (Text.withoutEnding? ".json" name)).getD name

/-- The role of a module's graph in a file. A graph that needs other modules to be present adds to
its own module, and so does one with several at signs in its name. -/
def ofFile (module : Module) (file : String) : GraphRole :=
  let name := stem ((Path.fileName? file).getD file)
  match Text.parts '@' name.toList with
  | [_] => main
  | [_, extended] =>
    if module.hasBystanders then extending module.name else extending (String.ofList extended)
  | _ => extending module.name

end GraphRole

end ApiAtlas
