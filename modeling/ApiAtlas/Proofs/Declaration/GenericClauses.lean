import ApiAtlas.Proofs.Declaration.Canonical
import ApiAtlas.Proofs.Declaration.Enclosed

/-!
# Generic clauses

Between the name of a declaration and its parameter list a generic clause may stand,
from an angle bracket to the one that closes it. It says nothing about labels, so a
declaration is to be simplified as if the clause were not there (`IsTransparent`).

A parameter list knows that the head of an arrow closes nothing. A heading does not: it
takes the head for a closing bracket, and where none is open passes over it
(`countedDepth`). So behind an arrow it may count fewer brackets than are open, though
never more (`countedDepth_eq_zero`), and a colon, an equals sign, a brace or a
parenthesis there ends the heading too early.

That is all that can go wrong. A clause is transparent exactly if none of these signs
stands where the heading counts no bracket (`isTransparent_iff`), as in every clause
without an arrow. Where one does, what has been read by then tells two parameter lists
not apart that differ, or takes one that is empty for one that is not.
-/

set_option autoImplicit false

namespace ApiAtlas.Declaration

/-! ## What a heading counts -/

namespace Mark

/-- The number of angle brackets that a heading counts as open after a mark. -/
def countAngle (depth : Nat) : Mark → Nat
  | .character sign => if sign = '<' then depth + 1 else if sign = '>' then depth - 1 else depth
  | .token _ _ => depth

/-- Whether a mark ends a heading outside angle brackets. -/
def endsHeading : Mark → Bool
  | .character sign => sign = ':' || sign = '=' || sign = '\x7b' || sign = '('
  | .token _ _ => false

end Mark

/-- The number of angle brackets that a heading counts as open after marks. -/
def countedDepth (depth : Nat) : List Mark → Nat
  | [] => depth
  | mark :: rest => countedDepth (mark.countAngle depth) rest

/-- The heading counts an open bracket wherever a sign stands that would end it. -/
def IsShielded (depth : Nat) (marks : List Mark) : Prop :=
  ∀ (place : Nat) (within : place < marks.length),
    marks[place].endsHeading = true → 0 < countedDepth depth (marks.take place)

instance (depth : Nat) (marks : List Mark) : Decidable (IsShielded depth marks) :=
  inferInstanceAs (Decidable (∀ (place : Nat) (within : place < marks.length),
    marks[place].endsHeading = true → 0 < countedDepth depth (marks.take place)))

theorem isShielded_nil (depth : Nat) : IsShielded depth [] :=
  nofun

theorem isShielded_cons_iff {depth : Nat} {mark : Mark} {rest : List Mark} :
    IsShielded depth (mark :: rest) ↔
      (mark.endsHeading = true → 0 < depth) ∧ IsShielded (mark.countAngle depth) rest := by
  constructor
  · intro shielded
    exact ⟨shielded 0 (Nat.zero_lt_succ _),
      fun place within => shielded (place + 1) (Nat.succ_lt_succ within)⟩
  · rintro ⟨first, others⟩ (_ | place) within
    · exact first
    · exact others place (Nat.lt_of_succ_lt_succ within)

/-- **A heading never counts more brackets than are open**, so that it counts none after the one
that closes the clause. -/
theorem countedDepth_eq_zero {marks : List Mark} {before : Option Mark} {level : Int} {depth : Nat}
    (closes : Closes Mark.angle level before marks) (below : depth ≤ level) :
    countedDepth depth marks = 0 := by
  induction marks generalizing before level depth with
  | nil =>
    have closed := closes.depth_eq_zero
    simp only [countedDepth]
    omega
  | cons mark rest ih =>
    have inside := closes.depth_pos
    refine ih closes.tail ?_
    cases mark with
    | token kind spelling => simpa [Mark.countAngle, Mark.angle] using below
    | character sign =>
      rw [Mark.countAngle, Mark.angle]
      by_cases opens : sign = '<'
      · rw [if_pos opens, if_pos opens]
        omega
      rw [if_neg opens, if_neg opens]
      by_cases closing : sign = '>'
      -- The head of an arrow is counted here and not there, where it makes no difference.
      · rw [if_pos closing]
        split <;> omega
      · rw [if_neg closing, if_neg fun head => closing head.1]
        omega

/-- The head of an arrow. -/
def arrow : List Mark :=
  [.character '-', .character '>']

/-- Without arrows a heading counts exactly the brackets that are open. -/
theorem isShielded_of_closes {marks : List Mark} {before : Option Mark} {depth : Nat}
    (closes : Closes Mark.angle depth before marks)
    (plain : ¬arrow <:+: before.toList ++ marks) : IsShielded depth marks := by
  induction marks generalizing before depth with
  | nil => exact isShielded_nil depth
  | cons mark rest ih =>
    have inside : 0 < depth := by simpa using closes.depth_pos
    have noHead : ¬(mark = .character '>' ∧ before = some (.character '-')) := by
      rintro ⟨rfl, rfl⟩
      exact plain ⟨[], rest, rfl⟩
    have counted : (mark.countAngle depth : Int) = depth + mark.angle before := by
      cases mark with
      | token kind spelling => simp [Mark.countAngle, Mark.angle]
      | character sign =>
        rw [Mark.countAngle, Mark.angle]
        by_cases opens : sign = '<'
        · rw [if_pos opens, if_pos opens]
          rfl
        rw [if_neg opens, if_neg opens]
        by_cases closing : sign = '>'
        · rw [if_pos closing, if_pos ⟨closing, fun dash => noHead ⟨by rw [closing], dash⟩⟩]
          omega
        · rw [if_neg closing, if_neg fun head => closing head.1, Int.add_zero]
    refine isShielded_cons_iff.2 ⟨fun _ => inside, ih (counted ▸ closes.tail) ?_⟩
    refine fun within => plain ?_
    exact within.trans (List.suffix_append before.toList (mark :: rest)).isInfix

/-! ## Passing a clause -/

namespace Scan

/-- The heading of a declaration whose name has been found, with so many angle brackets open. -/
def named (keyword : Option String) (name : String) (depth : Nat) : Scan :=
  .heading { keyword, name := some name, angleDepth := depth }

variable (keyword : Option String) (name : String)

/-- A mark that does not end the heading changes what it counts. -/
theorem pass_named {mark : Mark} {depth : Nat} (shielded : mark.endsHeading = true → 0 < depth) :
    (named keyword name depth).pass mark = named keyword name (mark.countAngle depth) := by
  cases mark with
  | token kind spelling => simp [named, pass, Heading.passToken, Mark.countAngle]
  | character sign =>
    have plain : (named keyword name depth).pass (.character sign) =
        { keyword, name := some name, angleDepth := depth : Heading }.passPlain sign := rfl
    have goesOn : (sign = ':' ∨ sign = '=' ∨ sign = '\x7b') ∨ sign = '(' → depth ≠ 0 :=
      fun special => Nat.ne_of_gt (shielded (by simpa [Mark.endsHeading, or_assoc] using special))
    rw [plain, Heading.passPlain, Mark.countAngle]
    by_cases opens : sign = '<'
    · rw [if_pos opens, if_pos opens]
      rfl
    rw [if_neg opens, if_neg opens]
    by_cases closing : sign = '>'
    · rw [if_pos closing, if_pos closing]
      rfl
    · rw [if_neg closing, if_neg closing, if_neg fun ends => goesOn (.inl ends.2) ends.1,
        if_neg fun ends => goesOn (.inr ends.2) ends.1]
      rfl

/-- A mark that ends the heading ends the scan or opens a parameter list. -/
theorem pass_named_of_ends {mark : Mark} (ends : mark.endsHeading = true) :
    (∃ found, (named keyword name 0).pass mark = .done found) ∨
      (named keyword name 0).pass mark = .parameters keyword name {} := by
  cases mark with
  | token kind spelling => cases ends
  | character sign =>
    simp only [Mark.endsHeading, Bool.or_eq_true, decide_eq_true_eq] at ends
    rcases ends with ((rfl | rfl) | rfl) | rfl
    · exact .inl ⟨_, rfl⟩
    · exact .inl ⟨_, rfl⟩
    · exact .inl ⟨_, rfl⟩
    · exact .inr rfl

/-- A clause that shields its signs leaves the heading as it was, but for what is counted. -/
theorem run_named {marks : List Mark} {depth : Nat} (shielded : IsShielded depth marks) :
    (named keyword name depth).run marks = named keyword name (countedDepth depth marks) := by
  induction marks generalizing depth with
  | nil => rfl
  | cons mark rest ih =>
    obtain ⟨first, others⟩ := isShielded_cons_iff.1 shielded
    rw [run_cons, pass_named keyword name first, ih others, countedDepth]

/-- A clause that does not shield its signs ends the heading. -/
theorem run_named_of_not_isShielded {marks : List Mark} {depth : Nat}
    (exposed : ¬IsShielded depth marks) :
    (∃ found, (named keyword name depth).run marks = .done found) ∨
      ∃ list, (named keyword name depth).run marks = .parameters keyword name list := by
  induction marks generalizing depth with
  | nil => exact absurd (isShielded_nil depth) exposed
  | cons mark rest ih =>
    rw [run_cons]
    by_cases first : mark.endsHeading = true → 0 < depth
    · rw [pass_named keyword name first]
      exact ih fun others => exposed (isShielded_cons_iff.2 ⟨first, others⟩)
    · obtain ⟨ends, outside⟩ := Classical.not_imp.1 first
      obtain rfl : depth = 0 := Nat.eq_zero_of_not_pos outside
      rcases pass_named_of_ends keyword name ends with ⟨found, ended⟩ | opens
      · rw [ended, run_done]
        exact .inl ⟨found, rfl⟩
      · rw [opens]
        exact (run_parameters keyword name rest {}).imp_left fun ⟨_, ended⟩ => ⟨_, ended⟩

/-- A parameter list is not empty if a parenthesis is opened in it. -/
theorem labels_ne_nil (list : ParameterList) :
    ((parameters keyword name list).run (marks [.text "()"])).finish.labels ≠ some [] := by
  have written : marks [.text "()"] = [.character '(', .character ')'] := by decide
  have opened : list.passCharacter '(' =
      { list.touch with previous := some '(', depth := list.depth + 1 } := by
    simp [ParameterList.passCharacter, ParameterList.touch]
  rw [written, run_cons, pass, if_neg (by simp), opened, run_cons, pass, if_neg (by simp), run_nil]
  simp [finish, ParameterList.finish, ParameterList.close, ParameterList.passCharacter,
    ParameterList.touch, Parameter.contribution]
  cases list.current.label <;> simp

end Scan

/-! ## Transparent clauses -/

/-- Whatever parameter list follows, a declaration is simplified with the clause as without it. How
text is cut does not matter, so that the clause may end in the fragment in which the list begins. -/
def IsTransparent (keyword name : String) (clause : List Fragment) : Prop :=
  ∀ parameters generic plain : List Fragment,
    (marks parameters).head? = some (.character '(') →
    marks generic =
      marks (.keyword keyword :: .text " " :: .identifier name :: (clause ++ parameters)) →
    marks plain = marks (.keyword keyword :: .text " " :: .identifier name :: parameters) →
    simplify generic = simplify plain

theorem signature_eq_run_named {keyword name : String} {declaration rest : List Fragment}
    (written : marks declaration =
      marks (.keyword keyword :: .text " " :: .identifier name :: rest)) :
    signature declaration = ((Scan.named (some keyword) name 0).run (marks rest)).finish := by
  rw [signature, written]
  rfl

/-- **A generic clause is transparent exactly if it shields its signs**, as it does without
arrows. -/
theorem isTransparent_iff (keyword name : String) {clause : List Fragment}
    (enclosed : IsEnclosed Mark.angle '<' (marks clause)) :
    (IsTransparent keyword name clause ↔ IsShielded 0 (marks clause)) ∧
      (¬arrow <:+: marks clause → IsTransparent keyword name clause) := by
  obtain ⟨rest, written, closes⟩ : ∃ rest, marks clause = .character '<' :: rest ∧
      Closes Mark.angle 1 (some (.character '<')) rest := by
    cases split : marks clause with
    | nil => exact (split ▸ enclosed : IsEnclosed Mark.angle '<' []).elim
    | cons first rest =>
      obtain ⟨rfl, closes⟩ := (split ▸ enclosed : IsEnclosed Mark.angle '<' (first :: rest))
      exact ⟨rest, rfl, closes⟩
  have counted : countedDepth 0 (marks clause) = 0 := by
    have opened : ((1 : Nat) : Int) ≤ 1 := Int.le_refl 1
    rw [written]
    show countedDepth 1 rest = 0
    exact countedDepth_eq_zero closes opened
  have shows : IsShielded 0 (marks clause) → IsTransparent keyword name clause := by
    intro shielded parameters generic plain _ withClause without
    rw [simplify_eq_iff, signature_eq_run_named withClause, signature_eq_run_named without,
      marks_append, Scan.run_append, Scan.run_named keyword name shielded, counted]
  refine ⟨⟨fun transparent => Decidable.byContradiction fun exposed => ?_, shows⟩,
    fun plain => shows ?_⟩
  · have same := simplify_eq_iff.1 (transparent [.text "()"] _ _ (by decide) rfl rfl)
    have other := simplify_eq_iff.1
      (transparent [.text "(", .label "x", .text ")"] _ _ (by decide) rfl rfl)
    rw [signature_eq_run_named rfl, signature_eq_run_named rfl, marks_append, Scan.run_append]
      at same other
    rcases Scan.run_named_of_not_isShielded (some keyword) name exposed with
      ⟨found, ended⟩ | ⟨list, opened⟩
    · rw [ended, Scan.run_done] at same other
      have equal : (some [] : Option (List String)) = some ["x"] :=
        congrArg Signature.labels (same.symm.trans other)
      cases equal
    · rw [opened] at same
      exact Scan.labels_ne_nil _ _ list (congrArg Signature.labels same)
  · rw [written] at plain ⊢
    exact isShielded_cons_iff.2 ⟨nofun, isShielded_of_closes closes plain⟩

/-- The clause `<F: (A) -> B>`, where the colon and the parenthesis stand before the arrow. -/
def shieldedClause : List Fragment :=
  [.text "<", ⟨.genericParameter, "F", none⟩, .text ": (", ⟨.typeIdentifier, "A", none⟩,
    .text ") -> ", ⟨.typeIdentifier, "B", none⟩, .text ">"]

/-- The clause `<T: Sequence<(Int) -> Void>, U: Hashable>`. Behind the arrow one bracket too few is
counted, and so none before the second colon. -/
def exposedClause : List Fragment :=
  [.text "<", ⟨.genericParameter, "T", none⟩, .text ": ",
    ⟨.typeIdentifier, "Sequence", some "s:ST"⟩, .text "<(", ⟨.typeIdentifier, "Int", some "s:Si"⟩,
    .text ") -> ", ⟨.typeIdentifier, "Void", some "s:s4Voida"⟩, .text ">, ",
    ⟨.genericParameter, "U", none⟩, .text ": ", ⟨.typeIdentifier, "Hashable", some "s:SH"⟩,
    .text ">"]

theorem isTransparent_iff_shielded :
    IsEnclosed Mark.angle '<' (marks shieldedClause) ∧
      IsShielded 0 (marks shieldedClause) ∧ IsTransparent "func" "apply" shieldedClause := by
  have enclosed : IsEnclosed Mark.angle '<' (marks shieldedClause) := by decide +kernel
  have shielded : IsShielded 0 (marks shieldedClause) := by decide +kernel
  exact ⟨enclosed, shielded, (isTransparent_iff "func" "apply" enclosed).1.2 shielded⟩

/-- The second colon ends the heading, and the parameter list is lost. -/
theorem simplify_exposed :
    let declaration (clause : List Fragment) : List Fragment :=
      .keyword "func" :: .text " " :: .identifier "apply" :: (clause ++
        [.text "(", .label "x", .text ": ", ⟨.typeIdentifier, "T", none⟩, .text ")"])
    IsEnclosed Mark.angle '<' (marks exposedClause) ∧
      simplify (declaration exposedClause) = [.keyword "func", .text " ", .identifier "apply"] ∧
      simplify (declaration []) =
        [.keyword "func", .text " ", .identifier "apply", .text "(", .label "x", .text ":)"] ∧
      simplify (declaration exposedClause) ≠ simplify (declaration []) := by
  decide +kernel

end ApiAtlas.Declaration
