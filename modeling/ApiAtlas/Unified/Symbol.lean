import ApiAtlas.Unified.View

/-!
# Unified symbols

A unified symbol holds what all graphs say about one identifier, view by view.
What one view knows is a facet: the module, the description, the comment and the
mixins, and whether a graph of the module itself contributed to it (a main
graph) or only graphs that extend it.

Two facets of one view are put one over the other (`Facet.above`): the upper one
decides, and the lower one fills in the comment and the mixins that the upper
one lacks. What arrives later lies above, except that an extension never lies
above what a main graph said (`Facet.receive`). Only the facet of the view that
a record belongs to changes (`UnifiedSymbol.facet?_record`).
-/

set_option autoImplicit false

namespace ApiAtlas

/-- What one view knows about a symbol. -/
structure Facet where
  module : Module
  description : Description
  comment : Option DocComment := none
  mixins : Mixins := Table.empty
  /-- Whether a main graph contributed. -/
  isMain : Bool
deriving DecidableEq

namespace Facet

/-- What a symbol of one graph contributes. -/
def ofSymbol (symbol : Symbol) (module : Module) (isMain : Bool) : Facet :=
  { module, description := symbol.description, comment := symbol.comment, mixins := symbol.mixins,
    isMain }

/-- The upper facet, with what it lacks filled in from the lower one. -/
def above (upper lower : Facet) : Facet :=
  { module := upper.module
    description := upper.description
    comment := upper.comment.or lower.comment
    mixins := Table.union lower.mixins upper.mixins
    isMain := upper.isMain || lower.isMain }

/-- The facet once another one has arrived: it lies above, unless it comes from an extension and
something of a main graph is there. -/
def receive (held arrived : Facet) : Facet :=
  if held.isMain && !arrived.isMain then held.above arrived else arrived.above held

/-- The facet replaced by a newer one as a whole; only a comment that the newer one lacks stays. -/
def replacedBy (held newer : Facet) : Facet :=
  { newer with comment := newer.comment.or held.comment, isMain := newer.isMain || held.isMain }

/-- The facet without the signs of zeros. -/
def unsignedZeros (facet : Facet) : Facet :=
  { facet with mixins := Mixins.unsignedZeros facet.mixins }

end Facet

/-- Everything that is known about one identifier. -/
structure UnifiedSymbol where
  identifier : String
  facets : Table View Facet := Table.empty
deriving DecidableEq

/-- Two records that are to be put together disagree on the identifier. -/
structure IdentifierMismatch where
  expected : String
  found : String
deriving DecidableEq, Repr

/-- The disagreement in words. -/
def IdentifierMismatch.message (mismatch : IdentifierMismatch) : String :=
  s!"Identifier mismatch: expected `{mismatch.expected}`, found `{mismatch.found}`"

namespace UnifiedSymbol

/-- A symbol of which nothing is known. -/
def empty (identifier : String) : UnifiedSymbol :=
  { identifier }

/-- What is known in a view. -/
def facet? (symbol : UnifiedSymbol) (view : View) : Option Facet :=
  symbol.facets.get? view

/-- The symbol once a facet has arrived for a view. -/
def record (symbol : UnifiedSymbol) (view : View) (facet : Facet) : UnifiedSymbol :=
  { symbol with
    facets := symbol.facets.alter view fun
      | none => some facet
      | some held => some (held.receive facet) }

/-- The symbol once a symbol of a graph has arrived for a view. -/
def merge (symbol : UnifiedSymbol) (arrived : Symbol) (view : View) (module : Module)
    (isMain : Bool) : Except IdentifierMismatch UnifiedSymbol :=
  if arrived.identifier = symbol.identifier then
    .ok (symbol.record view (Facet.ofSymbol arrived module isMain))
  else
    .error { expected := symbol.identifier, found := arrived.identifier }

/-- The unified symbol of a single symbol. -/
def ofSymbol (symbol : Symbol) (view : View) (module : Module) (isMain : Bool) : UnifiedSymbol :=
  (empty symbol.identifier).record view (Facet.ofSymbol symbol module isMain)

/-- The symbol without what is known in a view. -/
def removeView (symbol : UnifiedSymbol) (view : View) : UnifiedSymbol :=
  { symbol with facets := symbol.facets.erase view }

/-- The symbol with the facets of another one, which decide where both have one. -/
def absorb (symbol newer : UnifiedSymbol) : UnifiedSymbol :=
  { symbol with
    facets := newer.facets.entries.foldl
      (fun sofar entry => sofar.alter entry.1 fun
        | none => some entry.2
        | some held => some (held.replacedBy entry.2))
      symbol.facets }

/-- Whether nothing is known. -/
def isEmpty (symbol : UnifiedSymbol) : Bool :=
  symbol.facets.isEmpty

/-- The views that know the symbol. -/
def views (symbol : UnifiedSymbol) : List View :=
  symbol.facets.keys

/-- The views to which a main graph contributed, with what they know. -/
def mainFacets (symbol : UnifiedSymbol) : List (View × Facet) :=
  symbol.facets.entries.filter fun entry => entry.2.isMain

/-- The views to which a main graph contributed. -/
def mainViews (symbol : UnifiedSymbol) : List View :=
  symbol.mainFacets.map (·.1)

/-- Whether a main graph contributed at all. -/
def isInMainGraph (symbol : UnifiedSymbol) : Bool :=
  !symbol.mainFacets.isEmpty

/-- The view that speaks for the symbol: the first of a main graph, else the first of all. -/
def defaultView? (symbol : UnifiedSymbol) : Option View :=
  symbol.mainViews.head?.or symbol.views.head?

/-- The names in the view that speaks for the symbol. -/
def defaultNames? (symbol : UnifiedSymbol) : Option Names :=
  symbol.defaultView?.bind fun view => (symbol.facet? view).map (·.description.names)

/-- The groups of views with one more comment of a view: it joins the first group with the same
comment. -/
def joinCommentGroup (view : View) (comment : DocComment) :
    List (DocComment × List View) → List (DocComment × List View)
  | [] => [(comment, [view])]
  | (shared, views) :: rest =>
    if shared = comment then (shared, views ++ [view]) :: rest
    else (shared, views) :: joinCommentGroup view comment rest

/-- The different comments, each with the views that have it. -/
def commentGroups (symbol : UnifiedSymbol) : List (DocComment × List View) :=
  symbol.facets.entries.foldl
    (fun groups entry =>
      match entry.2.comment with
      | some comment => joinCommentGroup entry.1 comment groups
      | none => groups)
    []

/-- The symbol without the signs of zeros. -/
def unsignedZeros (symbol : UnifiedSymbol) : UnifiedSymbol :=
  { symbol with facets := symbol.facets.map fun _ facet => facet.unsignedZeros }

/-- A record changes what is known in its own view alone. -/
theorem facet?_record (symbol : UnifiedSymbol) (view other : View) (facet : Facet) :
    (symbol.record view facet).facet? other =
      if other = view then
        some (match symbol.facet? view with
          | none => facet
          | some held => held.receive facet)
      else
        symbol.facet? other := by
  rw [facet?, record, Table.get?_alter]
  split
  · unfold facet?
    cases symbol.facets.get? view <;> rfl
  · rfl

end UnifiedSymbol

end ApiAtlas
