import ApiAtlas.Proofs.Declaration.Fragmentwise

/-!
# Runs of text

Text fragments that stand side by side make up a run of text. A declaration can be
written with each run in one fragment (`mergeRuns`), and cutting a text in two, or
taking an empty one in, makes no difference to that (`mergeRuns_split`).

A signature is read off the runs. Neither the places where a run is cut
(`simplify_split`, `simplify_mergeRuns`) nor the symbols that fragments refer to
(`simplify_unreferenced`) show in the simplified declaration. Other fragments stay
apart: a keyword between two texts ends a run, and an arrow whose dash stands before
it is none.
-/

set_option autoImplicit false

namespace ApiAtlas.Declaration

/-! ## References -/

/-- The fragments without the symbols that they refer to. -/
def unreferenced (fragments : List Fragment) : List Fragment :=
  fragments.map fun fragment => { fragment with reference := none }

/-- A scan does not see references. -/
@[simp]
theorem marks_unreferenced (fragments : List Fragment) :
    marks (unreferenced fragments) = marks fragments := by
  rw [marks, unreferenced, List.flatMap_map]
  rfl

/-- Declarations with the same marks have the same signature. -/
theorem simplify_congr {first second : List Fragment} (same : marks first = marks second) :
    simplify first = simplify second := by
  rw [simplify, simplify, signature, signature, same]

theorem simplify_unreferenced (fragments : List Fragment) :
    simplify (unreferenced fragments) = simplify fragments :=
  simplify_congr (marks_unreferenced fragments)

/-! ## Merging runs -/

/-- The declaration with a text before it. A run of text with which it begins takes the text in,
and an empty text is left out. -/
def startRun (text : String) (fragments : List Fragment) : List Fragment :=
  match fragments with
  | [] => if text = "" then [] else [.text text]
  | fragment :: rest =>
    if fragment.kind = .text then
      .text (text ++ fragment.spelling) :: rest
    else if text = "" then
      fragment :: rest
    else
      .text text :: fragment :: rest

/-- The declaration with every run of text in one fragment. -/
def mergeRuns : List Fragment → List Fragment
  | [] => []
  | fragment :: rest =>
    if fragment.kind = .text then
      startRun fragment.spelling (mergeRuns rest)
    else
      fragment :: mergeRuns rest

/-- Two texts one after the other start the same run as both together. -/
theorem startRun_append (first second : String) (fragments : List Fragment) :
    startRun (first ++ second) fragments = startRun first (startRun second fragments) := by
  have joined : first ++ second = "" ↔ first = "" ∧ second = "" := String.append_eq_empty_iff
  cases fragments with
  | nil =>
    by_cases empty : second = ""
    · simp [startRun, empty]
    · simp [startRun, joined, empty, Fragment.text]
  | cons fragment rest =>
    by_cases plain : fragment.kind = .text
    · simp [startRun, plain, Fragment.text, String.append_assoc]
    · by_cases empty : second = ""
      · simp [startRun, plain, empty]
      · simp [startRun, plain, joined, empty, Fragment.text]

/-- **Cutting a text in two leaves the runs as they are.** -/
theorem mergeRuns_split (before after : List Fragment) (first second : String)
    (whole left right : Option String) :
    mergeRuns (before ++ ⟨.text, first ++ second, whole⟩ :: after) =
      mergeRuns (before ++ ⟨.text, first, left⟩ :: ⟨.text, second, right⟩ :: after) := by
  induction before with
  | nil =>
    simp only [List.nil_append, mergeRuns, if_true]
    exact startRun_append first second (mergeRuns after)
  | cons fragment rest ih => simp only [List.cons_append, mergeRuns, ih]

/-- A run starts with the characters of its first text. -/
theorem marks_startRun (text : String) (fragments : List Fragment) :
    marks (startRun text fragments) = text.toList.map .character ++ marks fragments := by
  cases fragments with
  | nil =>
    by_cases empty : text = ""
    · simp [startRun, empty]
    · simp [startRun, empty, fragmentMarks, Fragment.text]
  | cons fragment rest =>
    by_cases plain : fragment.kind = .text
    · simp [startRun, plain, fragmentMarks, Fragment.text]
    · by_cases empty : text = ""
      · simp [startRun, plain, empty]
      · simp [startRun, plain, empty, fragmentMarks, Fragment.text]

/-- Merging runs leaves the marks as they are. -/
theorem marks_mergeRuns (fragments : List Fragment) :
    marks (mergeRuns fragments) = marks fragments := by
  induction fragments with
  | nil => rfl
  | cons fragment rest ih =>
    rw [mergeRuns, marks_cons, fragmentMarks]
    by_cases plain : fragment.kind = .text
    · rw [if_pos plain, if_pos plain, marks_startRun, ih]
    · rw [if_neg plain, if_neg plain, marks_cons, fragmentMarks, if_neg plain, ih]

/-- **A signature is read off the runs of text.** -/
theorem simplify_mergeRuns (fragments : List Fragment) :
    simplify (mergeRuns fragments) = simplify fragments :=
  simplify_congr (marks_mergeRuns fragments)

/-- **It does not matter where a text is cut.** -/
theorem simplify_split (before after : List Fragment) (first second : String)
    (whole left right : Option String) :
    simplify (before ++ ⟨.text, first ++ second, whole⟩ :: after) =
      simplify (before ++ ⟨.text, first, left⟩ :: ⟨.text, second, right⟩ :: after) := by
  rw [← simplify_mergeRuns, mergeRuns_split before after first second whole left right,
    simplify_mergeRuns]

/-- The dash and the head of an arrow are cut apart, and so is the text before the parameters. -/
example :
    simplify [.keyword "func", .text " ", .identifier "map", .text "", .text "(", .label "using",
        .text ": (Int) -", .text "> Int, count: Int", .text ")"] =
      simplify [.keyword "func", .text " ", .identifier "map", .text "(", .label "using",
        .text ": (Int) -> Int, count: Int)"] := by
  decide +kernel

end ApiAtlas.Declaration
