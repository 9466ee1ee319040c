import ApiAtlas.Files.Path
import ApiAtlas.Table.Basic

/-!
# Files

A program sees files through their paths: at a path stands a file, a directory
or nothing (`FileEntry`). A file tree is such a view of files that are known by
the names on the way to them; a path is followed name by name, and every place
on the way must be a directory (`FileTree.place?`).

The files below a directory are ordered by the names on the way to them, name by
name. So all files of one directory stand together.
-/

set_option autoImplicit false

namespace ApiAtlas

/-- The bytes of a file. -/
abbrev FileContent : Type :=
  List UInt8

/-- What stands at a path. -/
inductive FileEntry
  | file (content : FileContent)
  /-- A directory with all files below it. -/
  | directory (files : Table (List String) FileContent)

/-- What stands at each path. -/
abbrev Files : Type :=
  String → Option FileEntry

/-- Files by the names on the way to them, and directories that need not hold a file. -/
structure FileTree where
  files : Table (List String) FileContent := Table.empty
  directories : KeySet (List String) := Table.empty

namespace FileTree

/-- The tree of texts at paths, with some more directories. -/
def ofTexts (texts : List (String × String)) (directories : List String) : FileTree :=
  { files := Table.ofList <| texts.map fun entry =>
      (Path.properNames entry.1, entry.2.toUTF8.toList)
    directories := KeySet.ofList (directories.map Path.properNames) }

/-- Whether a place lies above another one. -/
def isAbove (place other : List String) : Bool :=
  place.isPrefixOf other && place ≠ other

/-- Whether a directory stands at a place: the top, a directory of its own, or one on the way to a
file or another directory. -/
def isDirectory (tree : FileTree) (place : List String) : Bool :=
  place = [] || tree.directories.contains place || tree.directories.toList.any (isAbove place) ||
    tree.files.keys.any (isAbove place)

/-- The place that a name leads to from a place, if that is a directory. Nothing lies above the
top. -/
def follow (tree : FileTree) (place : List String) (name : String) : Option (List String) :=
  if !tree.isDirectory place then none
  else if Path.isHere name then some place
  else if name = ".." then if place = [] then none else some place.dropLast
  else some (place ++ [name])

/-- The place that a path leads to. Paths that begin with a slash lead out of the tree. -/
def place? (tree : FileTree) (path : String) : Option (List String) :=
  if path.toList.head? = some '/' then none else (Path.names path).foldlM tree.follow []

/-- The files below a place, by the names on the way from there. -/
def below (tree : FileTree) (place : List String) : Table (List String) FileContent :=
  Table.ofList <| (tree.files.entries.filter fun entry => isAbove place entry.1).map fun entry =>
    (entry.1.drop place.length, entry.2)

/-- What stands at a path. -/
def look (tree : FileTree) : Files := fun path => do
  let place ← tree.place? path
  match tree.files.get? place with
  | some content => return .file content
  | none => if tree.isDirectory place then return .directory (tree.below place) else none

end FileTree

end ApiAtlas
