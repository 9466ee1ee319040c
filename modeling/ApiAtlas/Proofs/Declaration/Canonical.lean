import ApiAtlas.Proofs.Declaration.Runs

/-!
# Canonical declarations

A canonical declaration is nothing but a signature written out: a keyword and a name,
of which either may be missing, and then either nothing, or an empty parameter list,
or labels with a colon after each. The grammar is said here without a word about how
a declaration is scanned (`IsCanonical`).

Simplifying always gives a canonical declaration, and leaves a canonical one as it is
(`simplify_canonical`). The second half is the one that could fail. A canonical
parameter list has no commas, so that a label is told to begin a parameter by the
colon before it (`ParameterList.passToken_label`), and its last colon comes in one
fragment with the parenthesis that closes the list. How keyword, name and labels are
spelled does not matter, since a scan looks into text alone: a label may be empty or
look like a bracket.
-/

set_option autoImplicit false

namespace ApiAtlas.Declaration

/-! ## The grammar -/

/-- One or more labels, each followed by a colon, the last one also by the closing parenthesis. -/
inductive IsLabelList : List Fragment → Prop
  | last (label : String) : IsLabelList [.label label, .text ":)"]
  | more (label : String) {rest : List Fragment} :
    IsLabelList rest → IsLabelList (.label label :: .text ":" :: rest)

/-- The parameter list of a canonical declaration, if there is one. -/
inductive IsClause : List Fragment → Prop
  | absent : IsClause []
  | empty : IsClause [.text "()"]
  | labels {rest : List Fragment} : IsLabelList rest → IsClause (.text "(" :: rest)

/-- A keyword and a name, of which either may be missing, before a parameter list. -/
inductive IsCanonical : List Fragment → Prop
  | bare {clause : List Fragment} : IsClause clause → IsCanonical clause
  | ofKeyword (keyword : String) {clause : List Fragment} :
    IsClause clause → IsCanonical (.keyword keyword :: clause)
  | ofName (name : String) {clause : List Fragment} :
    IsClause clause → IsCanonical (.identifier name :: clause)
  | ofBoth (keyword name : String) {clause : List Fragment} : IsClause clause →
    IsCanonical (.keyword keyword :: .text " " :: .identifier name :: clause)

variable {fragments : List Fragment}

theorem IsLabelList.reference_eq_none (list : IsLabelList fragments) :
    ∀ fragment ∈ fragments, fragment.reference = none := by
  induction list with
  | last label => simp [Fragment.label, Fragment.text]
  | more label _ ih => simpa [Fragment.label, Fragment.text] using ih

theorem IsClause.reference_eq_none (clause : IsClause fragments) :
    ∀ fragment ∈ fragments, fragment.reference = none := by
  cases clause with
  | absent => simp
  | empty => simp [Fragment.text]
  | labels list => simpa [Fragment.text] using list.reference_eq_none

/-- No fragment of a canonical declaration refers to a symbol. -/
theorem IsCanonical.reference_eq_none (canonical : IsCanonical fragments) :
    ∀ fragment ∈ fragments, fragment.reference = none := by
  cases canonical with
  | bare clause => exact clause.reference_eq_none
  | ofKeyword keyword clause => simpa [Fragment.keyword] using clause.reference_eq_none
  | ofName name clause => simpa [Fragment.identifier] using clause.reference_eq_none
  | ofBoth keyword name clause =>
    simpa [Fragment.keyword, Fragment.text, Fragment.identifier] using clause.reference_eq_none

/-! ## Signatures written out -/

theorem isLabelList_iff :
    IsLabelList fragments ↔
      ∃ label rest, Signature.labelFragments (label :: rest) = fragments := by
  constructor
  · intro list
    induction list with
    | last label => exact ⟨label, [], rfl⟩
    | more label _ ih =>
      obtain ⟨next, others, rfl⟩ := ih
      exact ⟨label, next :: others, rfl⟩
  · rintro ⟨label, rest, rfl⟩
    induction rest generalizing label with
    | nil => exact .last label
    | cons next others ih => exact .more label (ih next)

theorem isClause_iff :
    IsClause fragments ↔ ∃ labels, Signature.parameterFragments labels = fragments := by
  constructor
  · intro clause
    cases clause with
    | absent => exact ⟨none, rfl⟩
    | empty => exact ⟨some [], rfl⟩
    | labels list =>
      obtain ⟨label, rest, rfl⟩ := isLabelList_iff.1 list
      exact ⟨some (label :: rest), rfl⟩
  · rintro ⟨labels, rfl⟩
    rcases labels with _ | _ | ⟨label, rest⟩
    · exact .absent
    · exact .empty
    · exact .labels (isLabelList_iff.2 ⟨label, rest, rfl⟩)

/-- The canonical declarations are the signatures written out. -/
theorem isCanonical_iff :
    IsCanonical fragments ↔ ∃ signature : Signature, signature.fragments = fragments := by
  constructor
  · intro canonical
    cases canonical with
    | bare clause =>
      obtain ⟨labels, rfl⟩ := isClause_iff.1 clause
      exact ⟨⟨none, none, labels⟩, rfl⟩
    | ofKeyword keyword clause =>
      obtain ⟨labels, rfl⟩ := isClause_iff.1 clause
      exact ⟨⟨some keyword, none, labels⟩, rfl⟩
    | ofName name clause =>
      obtain ⟨labels, rfl⟩ := isClause_iff.1 clause
      exact ⟨⟨none, some name, labels⟩, rfl⟩
    | ofBoth keyword name clause =>
      obtain ⟨labels, rfl⟩ := isClause_iff.1 clause
      exact ⟨⟨some keyword, some name, labels⟩, rfl⟩
  · rintro ⟨⟨keyword, name, labels⟩, rfl⟩
    have clause : IsClause (Signature.parameterFragments labels) := isClause_iff.2 ⟨labels, rfl⟩
    cases keyword with
    | none =>
      cases name with
      | none => exact .bare clause
      | some name => exact .ofName name clause
    | some keyword =>
      cases name with
      | none => exact .ofKeyword keyword clause
      | some name => exact .ofBoth keyword name clause

/-! ## Reading a signature back -/

namespace ParameterList

/-- The list stands where a label begins a parameter: outside brackets, and either nothing has been
seen of the current parameter or its colon has been passed. -/
structure Awaits (list : ParameterList) : Prop where
  outside : list.depth = 0
  between : list.current = {} ∨ list.current.pastColon = true

/-- A list of which nothing but a bare parameter has been seen contributes what is finished. -/
theorem finish_of_current {list : ParameterList} (bare : list.current = {}) :
    list.finish = list.labels := by
  rw [finish, close, bare]
  exact List.append_nil _

/-- A label ends the parameter before it, if there is one, and begins its own. -/
theorem passToken_label {list : ParameterList} (awaits : list.Awaits) (label : String) :
    list.passToken .externalParameter label =
      { depth := 0, previous := none
        current := { label := some label, hasContent := true }
        labels := list.finish } := by
  rw [passToken, if_pos ⟨rfl, awaits.outside⟩, passLabel]
  by_cases past : list.current.pastColon = true
  · simp [past, close, finish, awaits.outside]
  · have bare := awaits.between.resolve_right past
    simp [bare, awaits.outside, finish_of_current bare]

/-- A colon outside brackets is noted. -/
theorem passCharacter_colon {list : ParameterList} (outside : list.depth = 0) :
    list.passCharacter ':' =
      { list with previous := some ':', current := { list.current with pastColon := true } } := by
  simp [passCharacter, outside]

end ParameterList

namespace Scan

variable (keyword name : Option String)

/-- Passes a label and the colon after it. -/
theorem run_label_colon {list : ParameterList} (awaits : list.Awaits) (label : String)
    (rest : List Mark) :
    ∃ next : ParameterList, next.Awaits ∧ next.finish = list.finish ++ [label] ∧
      (parameters keyword name list).run
          (.token .externalParameter label :: .character ':' :: rest) =
        (parameters keyword name next).run rest := by
  refine ⟨(list.passToken .externalParameter label).passCharacter ':', ?_⟩
  rw [ParameterList.passToken_label awaits, ParameterList.passCharacter_colon rfl]
  refine ⟨⟨rfl, .inr rfl⟩, rfl, ?_⟩
  rw [run_cons, pass, ParameterList.passToken_label awaits, run_cons, pass, if_neg (by simp),
    ParameterList.passCharacter_colon rfl]

/-- **Labels that are written out are read back.** -/
theorem run_labelFragments (rest : List String) (label : String) {list : ParameterList}
    (awaits : list.Awaits) :
    (parameters keyword name list).run (marks (Signature.labelFragments (label :: rest))) =
      .done { keyword, name, labels := some (list.finish ++ label :: rest) } := by
  induction rest generalizing label list with
  | nil =>
    obtain ⟨next, ready, finish, passed⟩ := run_label_colon keyword name awaits label
      [.character ')']
    refine passed.trans ?_
    rw [run_cons, pass, if_pos ⟨rfl, ready.outside⟩, finish, run_nil]
  | cons other others ih =>
    obtain ⟨next, ready, finish, passed⟩ := run_label_colon keyword name awaits label
      (marks (Signature.labelFragments (other :: others)))
    refine passed.trans ?_
    rw [ih other ready, finish, List.append_assoc]
    rfl

/-- A keyword and a name that are written out are read back. -/
theorem run_headingFragments :
    start.run (marks (Signature.headingFragments keyword name)) =
      .heading { keyword, name } := by
  cases keyword <;> cases name <;> rfl

/-- The parenthesis after a keyword and a name opens the parameter list. -/
theorem pass_opening :
    (heading { keyword, name }).pass (.character '(') = .parameters keyword name {} := by
  rfl

/-- In a parameter list a scan stays until it is over, with the keyword and the name that led to
it. -/
theorem run_parameters (marks : List Mark) (list : ParameterList) :
    (∃ labels, (parameters keyword name list).run marks =
        .done { keyword, name, labels := some labels }) ∨
      ∃ next, (parameters keyword name list).run marks = .parameters keyword name next := by
  induction marks generalizing list with
  | nil => exact .inr ⟨list, rfl⟩
  | cons mark rest ih =>
    cases mark with
    | token kind spelling => exact ih (list.passToken kind spelling)
    | character sign =>
      rw [run_cons, pass]
      by_cases closes : sign = ')' ∧ list.depth = 0
      · rw [if_pos closes, run_done]
        exact .inl ⟨list.finish, rfl⟩
      · rw [if_neg closes]
        exact ih (list.passCharacter sign)

end Scan

/-- **A signature that is written out is read back.** -/
theorem signature_fragments (written : Signature) : signature written.fragments = written := by
  obtain ⟨keyword, name, labels⟩ := written
  rw [signature, Signature.fragments, marks_append, Scan.run_append, Scan.run_headingFragments]
  rcases labels with _ | _ | ⟨label, rest⟩
  · rfl
  · rfl
  · have awaits : ({} : ParameterList).Awaits := ⟨rfl, .inl rfl⟩
    have opened : marks (Signature.parameterFragments (some (label :: rest))) =
        .character '(' :: marks (Signature.labelFragments (label :: rest)) := rfl
    rw [opened, Scan.run_cons, Scan.pass_opening, Scan.run_labelFragments _ _ rest label awaits]
    rfl

theorem simplify_fragments (written : Signature) :
    simplify written.fragments = written.fragments := by
  rw [simplify, signature_fragments]

/-- Declarations are simplified alike exactly if they have the same signature. -/
theorem simplify_eq_iff {first second : List Fragment} :
    simplify first = simplify second ↔ signature first = signature second := by
  constructor
  · intro same
    rw [← signature_fragments (signature first), ← signature_fragments (signature second)]
    exact congrArg signature same
  · exact congrArg Signature.fragments

/-- **Simplified declarations are canonical, and canonical ones are simplified.** So simplifying
twice is simplifying once. -/
theorem simplify_canonical :
    (∀ fragments, IsCanonical (simplify fragments)) ∧
      (∀ fragments, ∀ fragment ∈ simplify fragments, fragment.reference = none) ∧
      (∀ fragments, IsCanonical fragments ↔ simplify fragments = fragments) ∧
      ∀ fragments, simplify (simplify fragments) = simplify fragments := by
  have image : ∀ fragments, IsCanonical (simplify fragments) :=
    fun fragments => isCanonical_iff.2 ⟨signature fragments, rfl⟩
  refine ⟨image, fun fragments => (image fragments).reference_eq_none, fun fragments => ⟨?_, ?_⟩,
    fun fragments => simplify_fragments (signature fragments)⟩
  · intro canonical
    obtain ⟨written, rfl⟩ := isCanonical_iff.1 canonical
    exact simplify_fragments written
  · intro fixed
    rw [← fixed]
    exact image fragments

/-- Spellings that look like brackets and colons, and an empty label. -/
example :
    let declaration := [Fragment.keyword "\x7b", .text " ", .identifier "<", .text "(", .label "",
      .text ":", .label "):", .text ":)"]
    simplify declaration = declaration := by
  decide +kernel

end ApiAtlas.Declaration
