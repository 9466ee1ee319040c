import ApiAtlas.Json.Decoder
import ApiAtlas.Text.Blank

/-!
# Settings of a session

The settings say where the symbols of extending graphs go and whether, and for
which languages, overloads are grouped. Settings with an empty restriction are
of no use and are refused (`SessionConfig.problem?`).
-/

set_option autoImplicit false

namespace ApiAtlas

/-- Where the symbols go that a module adds to another one. -/
inductive ExtensionHome
  /-- To the module to which they are added. -/
  | extended
  /-- To the module that adds them. -/
  | extending
deriving DecidableEq, Repr

namespace ExtensionHome

/-- The homes by their names in settings. -/
def choices : List (String × ExtensionHome) :=
  [("extended_graph", extended), ("extending_graph", extending)]

/-- The name in settings. -/
def name : ExtensionHome → String
  | extended => "extended_graph"
  | extending => "extending_graph"

/-- Every home is found by its name. -/
theorem lookup_name (home : ExtensionHome) : choices.lookup home.name = some home := by
  cases home <;> rfl

end ExtensionHome

/-- The settings of a session. -/
structure SessionConfig where
  extensionHome : ExtensionHome := .extended
  /-- Whether overloads are grouped at the end. -/
  groupsOverloads : Bool := false
  /-- The languages whose overloads are grouped, or all of them. -/
  languages : Option (KeySet String) := none
deriving DecidableEq

/-- Why settings are of no use. -/
inductive ConfigProblem
  | noLanguage
  | blankLanguage
deriving DecidableEq, Repr

namespace ConfigProblem

/-- Why settings are of no use, in words. -/
def reason : ConfigProblem → String
  | noLanguage => "restrict_overload_group_languages must name at least one language"
  | blankLanguage => "restrict_overload_group_languages contains an empty name"

/-- The refusal of settings in words. -/
def message (problem : ConfigProblem) : String :=
  s!"Invalid configuration: {problem.reason}"

end ConfigProblem

namespace SessionConfig

/-- Overloads of all languages are grouped. -/
def groupingAll : SessionConfig :=
  { groupsOverloads := true }

/-- Overloads of some languages are grouped. -/
def groupingOnly (languages : List String) : SessionConfig :=
  { groupsOverloads := true, languages := some (KeySet.ofList languages) }

/-- What a module adds stays with it. -/
def keepingExtensions : SessionConfig :=
  { extensionHome := .extending }

/-- What is wrong with the settings, if something is. -/
def problem? (config : SessionConfig) : Option ConfigProblem :=
  match config.languages with
  | none => none
  | some languages =>
    if languages.isEmpty then some .noLanguage
    else if languages.toList.any Text.isBlankText then some .blankLanguage
    else none

/-- The record of settings. -/
def shape : RecordShape :=
  { name := "CollectorConfig"
    fields := ["extension_graph_association_strategy", "create_overload_groups",
      "restrict_overload_group_languages"] }

/-- Reads settings. All of them may be missing. -/
def decode (origin : Origin) : Decoder SessionConfig :=
  Decoder.record shape <|
    SessionConfig.mk
      <$> Fields.withDefault "extension_graph_association_strategy" .extended
        (Decoder.choice origin ExtensionHome.choices)
      <*> Fields.withDefault "create_overload_groups" false Decoder.boolean
      <*> Fields.optional "restrict_overload_group_languages" (fun draft =>
        (Decoder.list Decoder.text draft).map KeySet.ofList)

/-- Writes settings. -/
def encode (config : SessionConfig) : Json :=
  .object
    [("extension_graph_association_strategy", .text config.extensionHome.name),
      ("create_overload_groups", .boolean config.groupsOverloads),
      ("restrict_overload_group_languages",
        match config.languages with
        | some languages => Json.ofTexts languages.toList
        | none => .null)]

end SessionConfig

end ApiAtlas
