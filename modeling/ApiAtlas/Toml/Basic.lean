/-!
# TOML tables

A document is a table whose members are values, tables and lists of tables.
Tables come about in several ways (`TableOrigin`), and the way decides what may
be added to them later: a table that has a header is complete behind the next
header, a table that was only passed on the way to another one may still get a
header of its own, and a table that was made by a key with dots may be continued
by such keys alone.

Of a number, a date or a time nothing but its form is known.
-/

set_option autoImplicit false

namespace ApiAtlas.Toml

/-- How a table came about. -/
inductive TableOrigin
  /-- It has a header, or is the document itself. -/
  | header
  /-- It lies on the way to a table with a header. -/
  | way
  /-- It was made by a key with dots. -/
  | dotted
  /-- It is written within a line. -/
  | inline
deriving DecidableEq, Repr

/-- What stands under a key. -/
inductive Node
  | text (value : String)
  | boolean (value : Bool)
  /-- A number, a date or a time. -/
  | scalar
  | array (items : List Node)
  | table (origin : TableOrigin) (members : List (String × Node))
  /-- Tables under one repeated header. -/
  | tables (elements : List (List (String × Node)))

instance : Inhabited Node :=
  ⟨.scalar⟩

/-- The members of a table. -/
abbrev Members : Type :=
  List (String × Node)

namespace Members

/-- The members with another node under a key, unless the change is refused. -/
def alter? (key : String) (change : Option Node → Option Node) : Members → Option Members
  | [] => (change none).map fun node => [(key, node)]
  | (name, node) :: rest =>
    if name = key then (change (some node)).map fun changed => (name, changed) :: rest
    else (alter? key change rest).map ((name, node) :: ·)

/-- The members with a table changed to which a path leads. Tables that are missing on the way are
made. A path of dots does not lead into a table with a header, and no path leads into a value. -/
def within (made : TableOrigin) (change : TableOrigin → Members → Option Members) :
    List String → TableOrigin → Members → Option Members
  | [], origin, members => change origin members
  | key :: path, _, members =>
    members.alter? key fun
      | none => (within made change path made []).map (.table made)
      | some (.table origin inner) =>
        if origin = .inline ∨ (made = .dotted ∧ origin = .header) then none
        else (within made change path origin inner).map (.table origin)
      | some (.tables elements) =>
        elements.getLast?.bind fun last =>
          (within made change path .header last).map fun changed =>
            .tables (elements.dropLast ++ [changed])
      | some _ => none

/-- The members with a value under a key with dots, unless something stands there. The value goes
into a table that was made by such keys exactly if there are dots. -/
def insert? (path : List String) (key : String) (value : Node) (members : Members) :
    Option Members :=
  within .dotted
    (fun origin inner =>
      if (origin = .dotted) = (path = []) then none
      else inner.alter? key fun
        | none => some value
        | some _ => none)
    path .header members

end Members

/-! ## Headers -/

/-- The header of a table or of one table of a list. -/
structure Header where
  path : List String
  name : String
  isElement : Bool
deriving DecidableEq, Repr

/-- A document that has been read up to a place inside a table. -/
structure Draft where
  /-- Everything before the current table. -/
  root : Members := []
  /-- The header of the current table, unless it is the document itself. -/
  header : Option Header := none
  current : Members := []

namespace Draft

/-- The document with the current table in its place. -/
def close (draft : Draft) : Option Members :=
  match draft.header with
  | none => some draft.current
  | some header =>
    Members.within .way
      (fun _ inner => inner.alter? header.name fun
        | none => if header.isElement then none else some (.table .header draft.current)
        | some (.tables elements) =>
          if header.isElement then some (.tables (elements ++ [draft.current])) else none
        | some _ => none)
      header.path .header draft.root

/-- The members of the table that a header goes on with. -/
def resumed? (members : Members) (header : Header) : Option Members :=
  if header.isElement then
    match members.lookup header.name with
    | none | some (.tables _) => some []
    | some _ => none
  else
    match members.lookup header.name with
    | none => some []
    | some (.table .way inner) => some inner
    | some _ => none

/-- The members once a header has been read: a list of tables is there, and a table is taken out. -/
def opened (members : Members) (header : Header) : Members :=
  if header.isElement then
    if (members.lookup header.name).isNone then members ++ [(header.name, .tables [])] else members
  else
    members.filter fun member => member.1 ≠ header.name

/-- The members of a table to which a path of headers leads; none are there if it leads nowhere. -/
def lookWithin : List String → Members → Members
  | [], members => members
  | key :: path, members =>
    match members.lookup key with
    | some (.table _ inner) => lookWithin path inner
    | some (.tables elements) => lookWithin path (elements.getLast?.getD [])
    | _ => []

/-- The document behind a header. -/
def start (draft : Draft) (header : Header) : Option Draft := do
  let closed ← draft.close
  let current ← resumed? (lookWithin header.path closed) header
  let root ← Members.within .way (fun _ inner => some (opened inner header)) header.path .header
    closed
  return { root, header := some header, current }

/-- The document with a value under a key with dots in the current table. -/
def insert? (draft : Draft) (path : List String) (key : String) (value : Node) : Option Draft := do
  return { draft with current := ← draft.current.insert? path key value }

end Draft

end ApiAtlas.Toml
