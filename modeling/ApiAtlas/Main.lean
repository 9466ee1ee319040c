import ApiAtlas.Command.Run

/-!
# The command

The command looks at the files that its arguments name, runs on what it has seen
and prints the outcome. Notices and errors go to the error output.
-/

set_option autoImplicit false

open ApiAtlas

/-- The content of a file in a directory. Graph files alone are opened. -/
def contentOf (path name : String) : IO FileContent := do
  if Command.isGraphFile name then
    return (← IO.FS.readBinFile path).toList
  else
    return []

/-- The files below a directory, by the names on the way to them. -/
partial def filesBelow (path : String) (way : List String) :
    IO (List (List String × FileContent)) := do
  let directory ← IO.FS.realPath path
  let mut found := []
  for entry in ← directory.readDir do
    let below := Path.join path entry.fileName
    let place := way ++ [entry.fileName]
    let here ←
      try
        filesBelow below place
      catch _ =>
        pure [(place, ← contentOf below entry.fileName)]
    found := found ++ here
  return found

/-- What stands at a path. -/
def lookAt (path : String) : IO (Option FileEntry) := do
  try
    return some (.directory (Table.ofList (← filesBelow path [])))
  catch _ =>
    try
      return some (.file (← IO.FS.readBinFile path).toList)
    catch _ =>
      return none

/-- The paths at which a command looks. -/
def namedPaths (arguments : List String) : List String :=
  match Command.Request.read arguments with
  | .ok (.run invocation) => invocation.config.toList ++ invocation.inputs
  | _ => []

/-- Runs the command. -/
def main (arguments : List String) : IO UInt32 := do
  let seen ← (namedPaths arguments).mapM fun path => do
    return (path, ← lookAt path)
  let files : Files := fun path => (seen.lookup path).join
  let execution := Command.run files arguments
  let level := Command.shownLevel arguments
  for notice in execution.notices do
    if notice.level.isShownAt level then
      IO.eprintln s!"{notice.level.name} {notice.message}"
  match execution.outcome with
  | .refused error => IO.eprintln s!"error: {error.message}"
  | .failed error => IO.eprintln s!"Error: {error.message}"
  | .printed text => IO.print text
  return execution.outcome.status.toUInt32
