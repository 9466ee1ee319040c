import ApiAtlas.Declaration.Scan

/-!
# Simplified declarations

A signature is written again as fragments: keyword, name and parameter labels,
each label with a colon, and nothing else (`Signature.fragments`). Simplifying a
declaration is reading its signature and writing it (`simplify`).
-/

set_option autoImplicit false

namespace ApiAtlas.Declaration

namespace Signature

/-- The labels of a parameter list, each followed by a colon, the last also by the closing
parenthesis. -/
def labelFragments : List String → List Fragment
  | [] => []
  | [last] => [.label last, .text ":)"]
  | label :: rest => .label label :: .text ":" :: labelFragments rest

/-- The fragments of a parameter list. -/
def parameterFragments : Option (List String) → List Fragment
  | none => []
  | some [] => [.text "()"]
  | some (label :: rest) => .text "(" :: labelFragments (label :: rest)

/-- The fragments of a keyword and a name, with a space between them. -/
def headingFragments : Option String → Option String → List Fragment
  | none, none => []
  | some keyword, none => [.keyword keyword]
  | none, some name => [.identifier name]
  | some keyword, some name => [.keyword keyword, .text " ", .identifier name]

/-- The declaration that is nothing but its signature. -/
def fragments (signature : Signature) : List Fragment :=
  headingFragments signature.keyword signature.name ++ parameterFragments signature.labels

end Signature

/-- The part of a declaration that tells overloads apart, as a declaration. -/
def simplify (fragments : List Fragment) : List Fragment :=
  (signature fragments).fragments

end ApiAtlas.Declaration
