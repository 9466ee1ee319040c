import ApiAtlas.Json.Reader
import ApiAtlas.Session.Config
import ApiAtlas.Toml.Reader

/-!
# Settings in texts

Settings are written as JSON or as TOML, with the same names. In TOML the choice
of a home is a text, or a table that has only its name as a key and something
empty as the value of it.
-/

set_option autoImplicit false

namespace ApiAtlas.SessionConfig

/-- The settings in a text of JSON. -/
def ofJsonText? (text : String) : Option SessionConfig :=
  ((Document.ofText text).decode (decode .text)).toOption

/-- Whether a node is a table or an array without members. -/
def isEmptyNode : Toml.Node → Bool
  | .table _ [] | .array [] => true
  | _ => false

/-- The home that a node names. -/
def homeOfNode? : Toml.Node → Option ExtensionHome
  | .text name => ExtensionHome.choices.lookup name
  | .table _ [(name, value)] =>
    if isEmptyNode value then ExtensionHome.choices.lookup name else none
  | _ => none

/-- The truth value of a node. -/
def flagOfNode? : Toml.Node → Option Bool
  | .boolean flag => some flag
  | _ => none

/-- The text of a node. -/
def textOfNode? : Toml.Node → Option String
  | .text value => some value
  | _ => none

/-- The languages of a node. -/
def languagesOfNode? : Toml.Node → Option (KeySet String)
  | .array items => (items.mapM textOfNode?).map KeySet.ofList
  | _ => none

/-- The value under a key, or a default if nothing stands there. -/
def memberOr {α : Type} (members : Toml.Members) (key : String) (default : α)
    (read? : Toml.Node → Option α) : Option α :=
  match members.lookup key with
  | none => some default
  | some node => read? node

/-- The settings of a table. -/
def ofMembers? (members : Toml.Members) : Option SessionConfig := do
  let extensionHome ←
    memberOr members "extension_graph_association_strategy" .extended homeOfNode?
  let groupsOverloads ← memberOr members "create_overload_groups" false flagOfNode?
  let languages ← memberOr members "restrict_overload_group_languages" none fun node =>
    (languagesOfNode? node).map some
  return { extensionHome, groupsOverloads, languages }

/-- The settings in a text of TOML. -/
def ofTomlText? (text : String) : Option SessionConfig :=
  (Toml.document? text).bind ofMembers?

end ApiAtlas.SessionConfig
