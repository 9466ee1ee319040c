import ApiAtlas.Fragment
import ApiAtlas.Text.Blank

/-!
# Scanning a declaration

What tells one overload from another is the declaring keyword, the declared
name and the labels of the parameters (`Signature`). This module finds them in
one pass over a declaration.

The scan does not see fragments but marks (`marks`): a text fragment counts as
its characters, every other fragment as one mark. So it cannot depend on how a
run of text is cut into fragments (`marks_append`, `marks_text_append`).

The scan stands in one of three phases. In the heading it remembers the last
keyword and the first name, skips the arguments of attributes and everything
between angle brackets, and ends at a colon, an equals sign or an opening brace.
A parenthesis opens the parameter list, where brackets of all shapes are
counted and a parameter ends at a comma, at the closing parenthesis or at a
label that follows a colon. After that the scan is over and nothing changes its
finding (`run_done`).
-/

set_option autoImplicit false

namespace ApiAtlas.Declaration

/-- What one parameter of a declaration, one keyword and one name leave: the part of a
declaration that tells overloads apart. -/
structure Signature where
  keyword : Option String := none
  name : Option String := none
  /-- The labels of the parameters in order, if there is a parameter list. -/
  labels : Option (List String) := none
deriving DecidableEq, Repr

/-! ## Marks -/

/-- What a scan sees of a declaration: a character of plain text or a whole fragment. -/
inductive Mark
  | character (character : Char)
  | token (kind : FragmentKind) (spelling : String)
deriving DecidableEq, Repr

/-- The marks of one fragment. -/
def fragmentMarks (fragment : Fragment) : List Mark :=
  if fragment.kind = .text then
    fragment.spelling.toList.map .character
  else
    [.token fragment.kind fragment.spelling]

/-- The marks of a declaration. -/
def marks (fragments : List Fragment) : List Mark :=
  fragments.flatMap fragmentMarks

@[simp]
theorem marks_nil : marks [] = [] :=
  rfl

@[simp]
theorem marks_cons (fragment : Fragment) (rest : List Fragment) :
    marks (fragment :: rest) = fragmentMarks fragment ++ marks rest :=
  rfl

@[simp]
theorem marks_append (first second : List Fragment) :
    marks (first ++ second) = marks first ++ marks second :=
  List.flatMap_append

/-- Text leaves the same marks in one fragment as in two. -/
theorem marks_text_append (first second : String) :
    marks [Fragment.text (first ++ second)] =
      marks [Fragment.text first, Fragment.text second] := by
  simp [marks, fragmentMarks, Fragment.text]

/-! ## The parameter list -/

/-- A parameter of which only a part has been seen. -/
structure Parameter where
  label : Option String := none
  /-- A colon outside brackets has been passed. -/
  pastColon : Bool := false
  /-- Something other than blanks and separators has been passed. -/
  hasContent : Bool := false
deriving DecidableEq, Repr

/-- The label that a finished parameter contributes: its own or the placeholder, and none at all
if there was nothing in it. -/
def Parameter.contribution (parameter : Parameter) : List String :=
  match parameter.label with
  | some label => [label]
  | none => if parameter.hasContent then ["_"] else []

/-- A parameter list of which only a part has been seen. -/
structure ParameterList where
  /-- The number of brackets that stand open inside the list. -/
  depth : Nat := 0
  /-- The character before, unless a fragment of another kind stands between. -/
  previous : Option Char := none
  /-- The parameter that is being read. -/
  current : Parameter := {}
  /-- The labels of the finished parameters. -/
  labels : List String := []
deriving DecidableEq, Repr

namespace ParameterList

/-- Ends the parameter that is being read. -/
def close (list : ParameterList) : ParameterList :=
  { list with current := {}, labels := list.labels ++ list.current.contribution }

/-- Notes that the parameter that is being read is not empty. -/
def touch (list : ParameterList) : ParameterList :=
  { list with current := { list.current with hasContent := true } }

/-- Passes a character that does not end the list. -/
def passCharacter (list : ParameterList) (character : Char) : ParameterList :=
  let seen := { list with previous := some character }
  if character = '(' ∨ character = '[' ∨ character = '<' then
    { seen.touch with depth := list.depth + 1 }
  else if character = '>' ∧ list.previous = some '-' then
    seen
  else if character = ')' ∨ character = ']' ∨ character = '>' then
    { seen with depth := list.depth - 1 }
  else if character = ',' ∧ list.depth = 0 then
    seen.close
  else if character = ':' ∧ list.depth = 0 then
    { seen with current := { list.current with pastColon := true } }
  else if Text.isBlank character then
    seen
  else
    seen.touch

/-- Passes a label outside brackets: after a colon it opens the next parameter, and the first
label of a parameter is the one that counts. -/
def passLabel (list : ParameterList) (spelling : String) : ParameterList :=
  let opened := if list.current.pastColon then list.close else list
  { opened with
    current := { opened.current with
      label := opened.current.label.or (some spelling)
      hasContent := true } }

/-- Passes a fragment that is not plain text. -/
def passToken (list : ParameterList) (kind : FragmentKind) (spelling : String) : ParameterList :=
  let passed :=
    if kind = .externalParameter ∧ list.depth = 0 then list.passLabel spelling else list.touch
  { passed with previous := none }

/-- The labels once the list is over. -/
def finish (list : ParameterList) : List String :=
  list.close.labels

end ParameterList

/-! ## The heading -/

/-- The part of a declaration before its parameter list. -/
structure Heading where
  keyword : Option String := none
  name : Option String := none
  /-- The number of angle brackets that stand open. -/
  angleDepth : Nat := 0
  /-- The number of parentheses that stand open in the arguments of an attribute. -/
  attributeDepth : Nat := 0
  /-- An attribute has just been passed, so a parenthesis opens its arguments. -/
  afterAttribute : Bool := false
deriving DecidableEq, Repr

/-- Where a scan stands. -/
inductive Scan
  /-- Before the parameter list. -/
  | heading (opening : Heading)
  /-- Inside the parameter list, with the keyword and the name that led to it. -/
  | parameters (keyword name : Option String) (list : ParameterList)
  /-- The scan is over. -/
  | done (signature : Signature)
deriving DecidableEq, Repr

namespace Heading

/-- The signature of a declaration without a parameter list. -/
def signature (heading : Heading) : Signature :=
  { keyword := heading.keyword, name := heading.name }

/-- Passes a character that belongs to no attribute. -/
def passPlain (heading : Heading) (character : Char) : Scan :=
  if character = '<' then
    .heading { heading with angleDepth := heading.angleDepth + 1 }
  else if character = '>' then
    .heading { heading with angleDepth := heading.angleDepth - 1 }
  else if heading.angleDepth = 0 ∧ (character = ':' ∨ character = '=' ∨ character = '\x7b') then
    .done heading.signature
  else if heading.angleDepth = 0 ∧ character = '(' then
    .parameters heading.keyword heading.name {}
  else
    .heading heading

/-- Passes a character. -/
def passCharacter (heading : Heading) (character : Char) : Scan :=
  if heading.attributeDepth > 0 then
    if character = '(' then
      .heading { heading with attributeDepth := heading.attributeDepth + 1 }
    else if character = ')' then
      .heading { heading with attributeDepth := heading.attributeDepth - 1 }
    else
      .heading heading
  else if heading.afterAttribute then
    if character = '(' then
      .heading { heading with attributeDepth := 1, afterAttribute := false }
    else if Text.isBlank character then
      .heading heading
    else
      { heading with afterAttribute := false }.passPlain character
  else
    heading.passPlain character

/-- Passes a fragment that is not plain text. Only outside angle brackets and before the name does
an attribute, a keyword or a name count. -/
def passToken (heading : Heading) (kind : FragmentKind) (spelling : String) : Heading :=
  if heading.attributeDepth > 0 then
    heading
  else if heading.angleDepth = 0 ∧ heading.name = none then
    match kind with
    | .attributeName => { heading with afterAttribute := true }
    | .keyword => { heading with afterAttribute := false, keyword := some spelling }
    | .identifier => { heading with afterAttribute := false, name := some spelling }
    | _ => { heading with afterAttribute := false }
  else
    { heading with afterAttribute := false }

end Heading

/-! ## The scan -/

namespace Scan

/-- The scan before the first mark. -/
def start : Scan :=
  .heading {}

/-- Passes one mark. -/
def pass : Scan → Mark → Scan
  | .heading opening, .character character => opening.passCharacter character
  | .heading opening, .token kind spelling => .heading (opening.passToken kind spelling)
  | .parameters keyword name list, .character character =>
    if character = ')' ∧ list.depth = 0 then
      .done { keyword, name, labels := some list.finish }
    else
      .parameters keyword name (list.passCharacter character)
  | .parameters keyword name list, .token kind spelling =>
    .parameters keyword name (list.passToken kind spelling)
  | .done signature, _ => .done signature

/-- Passes a sequence of marks. -/
def run (scan : Scan) (marks : List Mark) : Scan :=
  marks.foldl pass scan

/-- The finding once there are no more marks. -/
def finish : Scan → Signature
  | .heading opening => opening.signature
  | .parameters keyword name list => { keyword, name, labels := some list.finish }
  | .done signature => signature

@[simp]
theorem run_nil (scan : Scan) : scan.run [] = scan :=
  rfl

@[simp]
theorem run_cons (scan : Scan) (mark : Mark) (rest : List Mark) :
    scan.run (mark :: rest) = (scan.pass mark).run rest :=
  rfl

/-- A scan passes one sequence after the other. -/
theorem run_append (scan : Scan) (first second : List Mark) :
    scan.run (first ++ second) = (scan.run first).run second :=
  List.foldl_append

/-- A scan that is over passes everything unchanged. -/
@[simp]
theorem run_done (signature : Signature) (marks : List Mark) :
    (Scan.done signature).run marks = .done signature := by
  induction marks with
  | nil => rfl
  | cons mark rest ih => exact ih

end Scan

/-- The signature of a declaration. -/
def signature (fragments : List Fragment) : Signature :=
  (Scan.start.run (marks fragments)).finish

end ApiAtlas.Declaration
