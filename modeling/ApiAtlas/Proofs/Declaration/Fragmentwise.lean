import ApiAtlas.Declaration.Simplify
import Mathlib.Tactic.SplitIfs

/-!
# Reading a declaration fragment by fragment

The signature of a declaration is found by a scan over its marks, which knows nothing
of where one text fragment ends and the next one begins. Here the declaration is read
the other way, fragment by fragment and with two readers. The reader of the heading
goes through the characters of a text fragment until a parenthesis opens the parameter
list (`Heading.readText`). The rest of that fragment, and then whole fragments, it
hands over to the reader of the parameter list (`ParameterList.readFrom`), which tells
after each fragment whether the list has been closed.

What is between the two readers, and what is between two fragments, has to come
through the hand-over: the open brackets, the character before, an attribute that
still waits for its arguments. Both ways find the same signature
(`readSignature_eq`).
-/

set_option autoImplicit false

namespace ApiAtlas.Declaration

/-! ## The reader of the parameter list -/

namespace ParameterList

/-- Reads characters, and tells whether the list has been closed. Then its last parameter is ended,
and what comes after the closing parenthesis is not looked at. -/
def readText (list : ParameterList) : List Char → ParameterList × Bool
  | [] => (list, false)
  | character :: rest =>
    if character = ')' ∧ list.depth = 0 then
      (list.close, true)
    else
      (list.passCharacter character).readText rest

/-- Reads a whole fragment, and tells whether the list has been closed. -/
def readFragment (list : ParameterList) (fragment : Fragment) : ParameterList × Bool :=
  if fragment.kind = .text then
    list.readText fragment.spelling.toList
  else
    (list.passToken fragment.kind fragment.spelling, false)

/-- Reads fragments until the list has been closed. -/
def readFragments (list : ParameterList) : List Fragment → ParameterList
  | [] => list
  | fragment :: rest =>
    match list.readFragment fragment with
    | (read, true) => read
    | (read, false) => read.readFragments rest

/-- The labels of a list that opens inside a fragment: it goes on with the rest of that fragment,
and then with the fragments that follow. -/
def readFrom (characters : List Char) (fragments : List Fragment) : List String :=
  match readText {} characters with
  | (read, true) => read.finish
  | (read, false) => (read.readFragments fragments).finish

/-- Nothing is left to contribute after the end of a parameter. -/
@[simp]
theorem finish_close (list : ParameterList) : list.close.finish = list.finish := by
  simp [finish, close, Parameter.contribution]

end ParameterList

/-! ## The reader of the heading -/

/-- Where the reader of the heading stands after a text. -/
inductive HeadingRead
  /-- The heading goes on. -/
  | passed (heading : Heading)
  /-- A sign has been met after which there is no parameter list. -/
  | ended (heading : Heading)
  /-- The parameter list opens, and these characters of the text are left. -/
  | opened (heading : Heading) (rest : List Char)

/-- Reads characters until the heading is over. -/
def Heading.readText (heading : Heading) : List Char → HeadingRead
  | [] => .passed heading
  | character :: rest =>
    match heading.passCharacter character with
    | .heading next => next.readText rest
    | .parameters _ _ _ => .opened heading rest
    | .done _ => .ended heading

/-- Reads a declaration from a heading on. -/
def readSignature (heading : Heading) : List Fragment → Signature
  | [] => heading.signature
  | fragment :: rest =>
    if fragment.kind = .text then
      match heading.readText fragment.spelling.toList with
      | .passed next => readSignature next rest
      | .ended last => last.signature
      | .opened last characters =>
        { keyword := last.keyword
          name := last.name
          labels := some (ParameterList.readFrom characters rest) }
    else
      readSignature (heading.passToken fragment.kind fragment.spelling) rest

/-! ## The readers against the scan -/

namespace Scan

open ParameterList

variable (keyword name : Option String)

/-- The scan passes the characters of a parameter list as they are read. -/
theorem run_readText (characters : List Char) (list : ParameterList) :
    (parameters keyword name list).run (characters.map .character) =
      match list.readText characters with
      | (read, true) => .done { keyword, name, labels := some read.finish }
      | (read, false) => .parameters keyword name read := by
  induction characters generalizing list with
  | nil => rfl
  | cons character rest ih =>
    rw [List.map_cons, run_cons, pass, readText]
    by_cases closes : character = ')' ∧ list.depth = 0
    · rw [if_pos closes, if_pos closes, run_done, ← finish_close]
    · rw [if_neg closes, if_neg closes, ih]

/-- The scan passes a whole fragment of a parameter list as it is read. -/
theorem run_readFragment (fragment : Fragment) (list : ParameterList) :
    (parameters keyword name list).run (fragmentMarks fragment) =
      match list.readFragment fragment with
      | (read, true) => .done { keyword, name, labels := some read.finish }
      | (read, false) => .parameters keyword name read := by
  rw [fragmentMarks, readFragment]
  by_cases plain : fragment.kind = .text
  · rw [if_pos plain, if_pos plain, run_readText]
  · rw [if_neg plain, if_neg plain]
    rfl

/-- The scan finds the labels that reading the fragments finds. -/
theorem finish_run_readFragments (fragments : List Fragment) (list : ParameterList) :
    ((parameters keyword name list).run (marks fragments)).finish =
      { keyword, name, labels := some (list.readFragments fragments).finish } := by
  induction fragments generalizing list with
  | nil => rfl
  | cons fragment rest ih =>
    rw [marks_cons, run_append, run_readFragment, readFragments]
    rcases list.readFragment fragment with ⟨read, closed⟩
    cases closed with
    | true => rw [run_done]; rfl
    | false => exact ih read

/-- The scan finds the labels also where the list opens inside a fragment. -/
theorem finish_run_readFrom (characters : List Char) (fragments : List Fragment) :
    ((parameters keyword name {}).run (characters.map .character ++ marks fragments)).finish =
      { keyword, name, labels := some (readFrom characters fragments) } := by
  rw [run_append, run_readText, readFrom]
  rcases readText {} characters with ⟨read, closed⟩
  cases closed with
  | true => rw [run_done]; rfl
  | false => exact finish_run_readFragments keyword name fragments read

end Scan

namespace Heading

/-- A character that belongs to no attribute keeps the heading going, opens the parameter list or
ends the scan. -/
theorem passPlain_cases (heading : Heading) (character : Char) :
    (∃ next, heading.passPlain character = .heading next) ∨
      heading.passPlain character = .parameters heading.keyword heading.name {} ∨
      heading.passPlain character = .done heading.signature := by
  rw [passPlain]
  split_ifs <;> simp

/-- So does every character. -/
theorem passCharacter_cases (heading : Heading) (character : Char) :
    (∃ next, heading.passCharacter character = .heading next) ∨
      heading.passCharacter character = .parameters heading.keyword heading.name {} ∨
      heading.passCharacter character = .done heading.signature := by
  rw [passCharacter]
  split
  · left
    split_ifs <;> exact ⟨_, rfl⟩
  · split
    · split
      · exact .inl ⟨_, rfl⟩
      · split
        · exact .inl ⟨_, rfl⟩
        · -- the attribute has no arguments, and forgetting it changes no keyword and no name
          exact passPlain_cases { heading with afterAttribute := false } character
    · exact heading.passPlain_cases character

/-- The scan passes the characters of a heading as they are read. -/
theorem run_readText (characters : List Char) (heading : Heading) (rest : List Mark) :
    (Scan.heading heading).run (characters.map .character ++ rest) =
      match heading.readText characters with
      | .passed next => (Scan.heading next).run rest
      | .ended last => .done last.signature
      | .opened last left =>
        (Scan.parameters last.keyword last.name {}).run (left.map .character ++ rest) := by
  induction characters generalizing heading with
  | nil => rfl
  | cons character others ih =>
    rw [List.map_cons, List.cons_append, Scan.run_cons, Scan.pass, readText]
    rcases heading.passCharacter_cases character with ⟨next, passes⟩ | opens | ends
    · rw [passes]
      exact ih next
    · rw [opens]
    · rw [ends, Scan.run_done]

end Heading

/-- The scan finds the signature that reading fragment by fragment finds, from any heading on. -/
theorem finish_run_readSignature (fragments : List Fragment) (heading : Heading) :
    ((Scan.heading heading).run (marks fragments)).finish = readSignature heading fragments := by
  induction fragments generalizing heading with
  | nil => rfl
  | cons fragment rest ih =>
    rw [marks_cons, fragmentMarks, readSignature]
    by_cases plain : fragment.kind = .text
    · rw [if_pos plain, if_pos plain, Heading.run_readText]
      cases heading.readText fragment.spelling.toList with
      | passed next => exact ih next
      | ended last => rfl
      | opened last left => exact Scan.finish_run_readFrom _ _ left rest
    · rw [if_neg plain, if_neg plain]
      exact ih (heading.passToken fragment.kind fragment.spelling)

/-- **Reading fragment by fragment finds the signature.** -/
theorem readSignature_eq (fragments : List Fragment) :
    readSignature {} fragments = signature fragments :=
  (finish_run_readSignature fragments {}).symm

end ApiAtlas.Declaration
