import ApiAtlas.Module
import ApiAtlas.Symbol.Basic

/-!
# Views

A view is a way to look at a module: in one language and, if the graph names
one, on one platform. Views are ordered by language and then by platform, with
the view without a platform first.
-/

set_option autoImplicit false

namespace ApiAtlas

/-- A language and, if there is one, a platform. -/
structure View where
  language : String
  platform : Option String := none
deriving DecidableEq, Repr

namespace View

/-- The parts of a view in the order in which they are compared. -/
def parts (view : View) : String × Option String :=
  (view.language, view.platform)

/-- Views are ordered by language, then by platform. -/
instance : Key View :=
  Key.along parts fun first second same => by
    simp only [parts, Prod.mk.injEq] at same
    cases first
    cases second
    simp_all

/-- The view of a symbol in a graph of a module. -/
def ofSymbol (symbol : Symbol) (module : Module) : View :=
  { language := symbol.language, platform := module.platform.name? }

/-- The language, and the platform behind an at sign. -/
def text (view : View) : String :=
  match view.platform with
  | some platform => s!"{view.language}@{platform}"
  | none => view.language

end View

end ApiAtlas
