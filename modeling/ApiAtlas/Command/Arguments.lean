import ApiAtlas.Session.Config

/-!
# Arguments of the command line

The arguments are read from left to right (`Request.read`), and the first one
that is wrong decides. An argument with a minus sign at its start is an option;
behind two minus signs that stand alone every argument is an input. A lone minus
sign is no option.

A switch may be given once, and so may an option with a value; only languages
may be repeated. The value of an option follows an equals sign or is the next
argument, which may not look like an option.
-/

set_option autoImplicit false

namespace ApiAtlas.Command

/-- An option without a value. -/
inductive Switch
  | groupOverloads
  | groupEachGraph
  | json
  | pretty
  | verbose
  | quiet
deriving DecidableEq, Repr

/-- An option with a value. -/
inductive Setting
  | config
  | extensionHome
  | language
deriving DecidableEq, Repr

/-- What the long name of an option stands for. -/
inductive LongOption
  | switch (switch : Switch)
  | setting (setting : Setting)
  | version
  | help
deriving DecidableEq, Repr

/-- What the command is asked to do. -/
structure Invocation where
  inputs : List String := []
  config : Option String := none
  extensionHome : Option ExtensionHome := none
  languages : List String := []
  switches : List Switch := []
deriving DecidableEq, Repr

/-- What is wrong with the arguments. -/
inductive UsageError
  | unknownOption (argument : String)
  | missingValue (argument : String)
  | unexpectedValue (argument : String)
  | repeatedOption (argument : String)
  | unknownChoice (value : String)
  | emptyPath
  | missingInput
deriving DecidableEq, Repr

/-- What is wrong with the arguments, in words. -/
def UsageError.message : UsageError → String
  | unknownOption argument => s!"unexpected argument '{argument}' found"
  | missingValue argument => s!"a value is required for '{argument}' but none was supplied"
  | unexpectedValue argument => s!"unexpected value in '{argument}'"
  | repeatedOption argument => s!"the argument '{argument}' cannot be used multiple times"
  | unknownChoice value => s!"invalid value '{value}', possible values are: extended, extending"
  | emptyPath => "a value is required for a path but none was supplied"
  | missingInput => "the following required arguments were not provided: <INPUTS>..."

/-- What the arguments ask for. -/
inductive Request
  | run (invocation : Invocation)
  | version
  | help
deriving DecidableEq, Repr

/-- The option with a long name. -/
def longOption? : String → Option LongOption
  | "overload-groups" => some (.switch .groupOverloads)
  | "per-graph-overloads" => some (.switch .groupEachGraph)
  | "json" => some (.switch .json)
  | "pretty" => some (.switch .pretty)
  | "verbose" => some (.switch .verbose)
  | "quiet" => some (.switch .quiet)
  | "config" => some (.setting .config)
  | "extension-association" => some (.setting .extensionHome)
  | "restrict-language" => some (.setting .language)
  | "version" => some .version
  | "help" => some .help
  | _ => none

/-- The option with a short name. -/
def shortOption? : Char → Option LongOption
  | 'v' => some (.switch .verbose)
  | 'V' => some .version
  | 'h' => some .help
  | _ => none

namespace Invocation

/-- Whether a switch has been given. -/
def has (invocation : Invocation) (switch : Switch) : Bool :=
  invocation.switches.contains switch

/-- The invocation with one more switch. -/
def turnOn (invocation : Invocation) (argument : String) (switch : Switch) :
    Except UsageError Invocation :=
  if invocation.has switch then .error (.repeatedOption argument)
  else .ok { invocation with switches := invocation.switches ++ [switch] }

/-- The invocation with one more input. -/
def addInput (invocation : Invocation) (path : String) : Except UsageError Invocation :=
  if path = "" then .error .emptyPath
  else .ok { invocation with inputs := invocation.inputs ++ [path] }

/-- The invocation with the value of an option. -/
def assign (invocation : Invocation) (argument : String) (setting : Setting) (value : String) :
    Except UsageError Invocation :=
  match setting with
  | .config =>
    if invocation.config.isSome then .error (.repeatedOption argument)
    else if value = "" then .error .emptyPath
    else .ok { invocation with config := some value }
  | .extensionHome =>
    if invocation.extensionHome.isSome then
      .error (.repeatedOption argument)
    else
      match value with
      | "extended" => .ok { invocation with extensionHome := some .extended }
      | "extending" => .ok { invocation with extensionHome := some .extending }
      | other => .error (.unknownChoice other)
  | .language => .ok { invocation with languages := invocation.languages ++ [value] }

end Invocation

/-! ## Reading -/

/-- What one argument is. -/
inductive Argument
  /-- Two minus signs that stand alone. -/
  | divider
  /-- A long option, with the text behind its equals sign if there is one. -/
  | long (name : String) (value : Option String)
  | short (letters : List Char)
  | input (path : String)
deriving DecidableEq, Repr

/-- What an argument is. -/
def Argument.of (argument : String) : Argument :=
  match argument.toList with
  | '-' :: '-' :: [] => divider
  | '-' :: '-' :: name =>
    match name.dropWhile (· ≠ '=') with
    | [] => long (String.ofList name) none
    | _ :: value =>
      long (String.ofList (name.takeWhile (· ≠ '='))) (some (String.ofList value))
  | '-' :: letter :: letters => short (letter :: letters)
  | _ => input argument

/-- Whether an argument may be the value of an option. -/
def Argument.isValue : Argument → Bool
  | input _ => true
  | _ => false

/-- What the next argument is taken for. -/
inductive Expecting
  /-- An option or an input. -/
  | anything
  /-- The value of an option that stands before it. -/
  | value (argument : String) (setting : Setting)
  /-- An input, whatever it looks like. -/
  | onlyInputs
deriving DecidableEq, Repr

/-- Arguments that have been read so far. -/
structure Reading where
  invocation : Invocation := {}
  expecting : Expecting := .anything
deriving DecidableEq, Repr

/-- What comes of one more argument: a reading, or a request that needs no more of them. -/
abbrev Progress : Type :=
  Except UsageError (Reading ⊕ Request)

namespace Reading

/-- Goes on with another invocation. -/
def goOn (reading : Reading) (invocation : Except UsageError Invocation) : Progress :=
  invocation.map fun next => .inl { reading with invocation := next, expecting := .anything }

/-- Reads short options that stand together. -/
def passShort (reading : Reading) (argument : String) : List Char → Progress
  | [] => .ok (.inl reading)
  | letter :: rest =>
    match shortOption? letter with
    | some (.switch switch) =>
      match reading.invocation.turnOn argument switch with
      | .ok next => passShort { reading with invocation := next } argument rest
      | .error error => .error error
    | some .version => .ok (.inr .version)
    | some .help => .ok (.inr .help)
    | some (.setting _) | none => .error (.unknownOption argument)

/-- Reads a long option. -/
def passLong (reading : Reading) (argument : String) (option : LongOption)
    (value : Option String) : Progress :=
  match option, value with
  | .setting setting, some value => reading.goOn (reading.invocation.assign argument setting value)
  | .setting setting, none => .ok (.inl { reading with expecting := .value argument setting })
  | _, some _ => .error (.unexpectedValue argument)
  | .switch switch, none => reading.goOn (reading.invocation.turnOn argument switch)
  | .version, none => .ok (.inr .version)
  | .help, none => .ok (.inr .help)

/-- Reads an argument that is an option or an input. -/
def passAnything (reading : Reading) (argument : String) : Progress :=
  match Argument.of argument with
  | .divider => .ok (.inl { reading with expecting := .onlyInputs })
  | .input path => reading.goOn (reading.invocation.addInput path)
  | .short letters => reading.passShort argument letters
  | .long name value =>
    match longOption? name with
    | some option => reading.passLong argument option value
    | none => .error (.unknownOption argument)

/-- Reads an argument. -/
def pass (reading : Reading) (argument : String) : Progress :=
  match reading.expecting with
  | .anything => reading.passAnything argument
  | .value option setting =>
    if (Argument.of argument).isValue then
      reading.goOn (reading.invocation.assign option setting argument)
    else
      .error (.missingValue option)
  | .onlyInputs =>
    (reading.invocation.addInput argument).map fun next =>
      .inl { reading with invocation := next }

/-- The request when there are no more arguments. -/
def complete (reading : Reading) : Except UsageError Request :=
  match reading.expecting with
  | .value option _ => .error (.missingValue option)
  | _ =>
    if reading.invocation.inputs = [] then .error .missingInput
    else .ok (.run reading.invocation)

/-- Reads more arguments. -/
def passAll (reading : Reading) : List String → Except UsageError Request
  | [] => reading.complete
  | argument :: rest =>
    match reading.pass argument with
    | .ok (.inl next) => next.passAll rest
    | .ok (.inr request) => .ok request
    | .error error => .error error

end Reading

/-- Reads the arguments. -/
def Request.read (arguments : List String) : Except UsageError Request :=
  Reading.passAll {} arguments

end ApiAtlas.Command
