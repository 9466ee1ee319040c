/-!
# Splitting texts

A text is split at a separator into its parts, of which there is always one
more than there are separators. Joined again the parts are the text
(`intercalate_parts`), and none of them holds a separator
(`not_mem_of_mem_parts`).

A line ends at a line feed, or at a carriage return and a line feed. The first
line of a text stands before the first line feed (`firstLine`), and so it holds
none (`not_mem_firstLine`).
-/

set_option autoImplicit false

namespace ApiAtlas.Text

/-- The parts of a text between the separators. -/
def parts (separator : Char) : List Char → List (List Char)
  | [] => [[]]
  | character :: rest =>
    if character = separator then
      [] :: parts separator rest
    else
      match parts separator rest with
      | [] => [[character]]
      | first :: others => (character :: first) :: others

/-- There is at least one part. -/
theorem parts_ne_nil (separator : Char) (characters : List Char) :
    parts separator characters ≠ [] := by
  cases characters with
  | nil => simp [parts]
  | cons character rest =>
    rw [parts]
    split
    · simp
    · split <;> simp

/-- Joined again the parts are the text. -/
theorem intercalate_parts (separator : Char) (characters : List Char) :
    [separator].intercalate (parts separator characters) = characters := by
  induction characters with
  | nil => rfl
  | cons character rest ih =>
    have some_part := parts_ne_nil separator rest
    rw [parts]
    split
    · next same =>
      cases split_rest : parts separator rest with
      | nil => exact absurd split_rest some_part
      | cons first others => rw [List.intercalate_cons_cons, ← split_rest, ih, same]; rfl
    · cases split_rest : parts separator rest with
      | nil => exact absurd split_rest some_part
      | cons first others =>
        rw [split_rest] at ih
        cases others with
        | nil => simpa using ih
        | cons second further =>
          rw [List.intercalate_cons_cons] at ih ⊢
          rw [← ih]
          rfl

/-- No part holds a separator. -/
theorem not_mem_of_mem_parts {separator : Char} {characters part : List Char}
    (isPart : part ∈ parts separator characters) : separator ∉ part := by
  induction characters generalizing part with
  | nil => simp_all [parts]
  | cons character rest ih =>
    rw [parts] at isPart
    split at isPart
    · rcases List.mem_cons.1 isPart with same | later
      · simp [same]
      · exact ih later
    · next differs =>
      cases split_rest : parts separator rest with
      | nil => exact absurd split_rest (parts_ne_nil separator rest)
      | cons first others =>
        rw [split_rest] at isPart ih
        rcases List.mem_cons.1 isPart with same | later
        · subst same
          simp only [List.mem_cons, not_or]
          exact ⟨fun equal => differs equal.symm, ih (List.mem_cons_self ..)⟩
        · exact ih (List.mem_cons_of_mem _ later)

/-- The text before an ending, if it has that ending. -/
def withoutEnding? (ending text : String) : Option String :=
  if ending.toList.isSuffixOf text.toList then
    some (String.ofList (text.toList.take (text.toList.length - ending.toList.length)))
  else
    none

/-- A text without a carriage return at its end. -/
def withoutReturn (line : String) : String :=
  (withoutEnding? "\r" line).getD line

/-- The first line of a text, without what ends it. The end of the text ends its last line just
as a line feed would. -/
def firstLine (text : String) : String :=
  withoutReturn (String.ofList (text.toList.takeWhile (· ≠ '\n')))

/-- Taking a carriage return away brings no character in. -/
theorem mem_of_mem_withoutReturn {character : Char} {line : String}
    (isMember : character ∈ (withoutReturn line).toList) : character ∈ line.toList := by
  rw [withoutReturn, withoutEnding?] at isMember
  split at isMember
  · rw [Option.getD_some, String.toList_ofList] at isMember
    exact List.mem_of_mem_take isMember
  · exact isMember

/-- The first line holds no line feed. -/
theorem not_mem_firstLine (text : String) : '\n' ∉ (firstLine text).toList := by
  intro isMember
  have before := mem_of_mem_withoutReturn isMember
  rw [String.toList_ofList] at before
  simpa using List.all_eq_true.1 List.all_takeWhile _ before

end ApiAtlas.Text
