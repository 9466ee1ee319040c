import ApiAtlas.Proofs.Declaration.Runs

/-!
# From a bracket to the one that closes it

Which bracket closes which is a matter of counting, and of what is counted. Arguments
of an attribute are told by parentheses alone (`Mark.parenthesis`), a generic clause by
angle brackets, where the head of an arrow is none (`Mark.angle`). A stretch of marks is
enclosed if it starts with a bracket and ends with the one that closes it
(`IsEnclosed`): going from left to right the number of open brackets is positive until
the last mark, and zero after it.

Nothing is said of other brackets and of fragments that are not text, which may stand
in an enclosed stretch as they like.
-/

set_option autoImplicit false

namespace ApiAtlas.Declaration

namespace Mark

/-- What a mark adds to the number of open parentheses. -/
def parenthesis (_ : Option Mark) : Mark → Int
  | .character sign => if sign = '(' then 1 else if sign = ')' then -1 else 0
  | .token _ _ => 0

/-- What a mark adds to the number of open angle brackets. It is told by the mark before it whether
it is the head of an arrow. -/
def angle (before : Option Mark) : Mark → Int
  | .character sign =>
    if sign = '<' then 1
    else if sign = '>' ∧ before ≠ some (.character '-') then -1
    else 0
  | .token _ _ => 0

end Mark

variable {count : Option Mark → Mark → Int}

/-- The number of brackets that marks leave open, as counted. -/
def height (count : Option Mark → Mark → Int) (before : Option Mark) : List Mark → Int
  | [] => 0
  | mark :: rest => count before mark + height count (some mark) rest

/-- The marks close `depth` brackets, the last of them with their last mark. -/
structure Closes (count : Option Mark → Mark → Int) (depth : Int) (before : Option Mark)
    (marks : List Mark) : Prop where
  /-- A bracket is open before every mark. -/
  inside : ∀ place < marks.length, 0 < depth + height count before (marks.take place)
  /-- In the end every bracket is closed. -/
  closed : depth + height count before marks = 0

namespace Closes

variable {depth : Int} {before : Option Mark} {mark : Mark} {rest : List Mark}

instance (marks : List Mark) : Decidable (Closes count depth before marks) :=
  decidable_of_iff
    ((∀ place < marks.length, 0 < depth + height count before (marks.take place)) ∧
      depth + height count before marks = 0)
    ⟨fun ⟨inside, closed⟩ => ⟨inside, closed⟩, fun closes => ⟨closes.inside, closes.closed⟩⟩

/-- Where no mark is left no bracket is open. -/
theorem depth_eq_zero (closes : Closes count depth before []) : depth = 0 := by
  simpa [height] using closes.closed

/-- Before the first mark a bracket is open. -/
theorem depth_pos (closes : Closes count depth before (mark :: rest)) : 0 < depth := by
  simpa [height] using closes.inside 0 (by simp)

/-- After the first mark the rest closes what is then open. -/
theorem tail (closes : Closes count depth before (mark :: rest)) :
    Closes count (depth + count before mark) (some mark) rest := by
  have shift : ∀ marks, depth + height count before (mark :: marks) =
      depth + count before mark + height count (some mark) marks :=
    fun marks => (Int.add_assoc ..).symm
  refine ⟨fun place within => ?_, ?_⟩
  · have further := closes.inside (place + 1) (Nat.succ_lt_succ within)
    rwa [List.take_succ_cons, shift] at further
  · rw [← shift]
    exact closes.closed

end Closes

/-- The marks go from an opening bracket to the one that closes it. -/
def IsEnclosed (count : Option Mark → Mark → Int) (opening : Char) : List Mark → Prop
  | [] => False
  | first :: rest => first = .character opening ∧ Closes count 1 (some first) rest

instance (opening : Char) : (marks : List Mark) → Decidable (IsEnclosed count opening marks)
  | [] => inferInstanceAs (Decidable False)
  | first :: rest =>
    inferInstanceAs (Decidable (first = .character opening ∧ Closes count 1 (some first) rest))

end ApiAtlas.Declaration
