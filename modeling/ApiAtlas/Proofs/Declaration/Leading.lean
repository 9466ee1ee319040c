import ApiAtlas.Proofs.Declaration.Canonical
import ApiAtlas.Proofs.Declaration.Enclosed

/-!
# What stands before a declaration

Attributes and modifiers say nothing about which overload a declaration is, and a scan
is to find the same signature with them and without.

For attributes it does (`simplify_attributed`). The name of an attribute makes the scan
wait for arguments, over blanks, and inside their parentheses it looks at parentheses
alone (`Heading.run_closes`). What follows the attributes has to begin with a fragment
that is not text, since text there would still belong to the last attribute.

For modifiers it does exactly if none has an argument (`simplify_modified_iff`). A scan
takes the last keyword before the name for the declaring one, and so forgets a modifier
for the next keyword. But the parenthesis of a modifier's argument opens a parameter
list for it, as it would after `init`. What has been read by then is the modifier alone,
and the name that comes later is not found (`signature_argument`).
-/

set_option autoImplicit false

namespace ApiAtlas.Declaration

/-! ## Blanks and arguments -/

/-- Whether a mark is a blank character. -/
def Mark.isBlank : Mark → Bool
  | .character sign => Text.isBlank sign
  | .token _ _ => false

namespace Heading

variable {heading : Heading}

/-- A blank has no meaning in a heading. -/
theorem passPlain_blank {sign : Char} (blank : Text.isBlank sign = true) :
    heading.passPlain sign = .heading heading := by
  have other : ∀ special, Text.isBlank special = false → sign ≠ special := by
    rintro special seen rfl
    rw [blank] at seen
    cases seen
  simp [passPlain, other '<' (by decide), other '>' (by decide), other ':' (by decide),
    other '=' (by decide), other '\x7b' (by decide), other '(' (by decide)]

/-- Outside the arguments of an attribute blanks are passed over, whether arguments are waited for
or not. -/
theorem run_blank (heading : Heading) (outside : heading.attributeDepth = 0) {blanks : List Mark}
    (blank : ∀ mark ∈ blanks, mark.isBlank = true) :
    (Scan.heading heading).run blanks = .heading heading := by
  induction blanks with
  | nil => rfl
  | cons mark rest ih =>
    obtain ⟨first, others⟩ := List.forall_mem_cons.1 blank
    obtain ⟨sign, rfl, seen⟩ : ∃ sign, mark = .character sign ∧ Text.isBlank sign = true := by
      cases mark with
      | character sign => exact ⟨sign, rfl, first⟩
      | token kind spelling => cases first
    have noArguments : sign ≠ '(' := by
      rintro rfl
      revert seen
      decide
    have passed : heading.passCharacter sign = .heading heading := by
      rw [passCharacter, if_neg (by omega)]
      cases waits : heading.afterAttribute with
      | false => exact passPlain_blank seen
      | true => rw [if_pos rfl, if_neg noArguments, if_pos seen]
    rw [Scan.run_cons, Scan.pass, passed]
    exact ih others

/-- **Inside the arguments of an attribute only parentheses are seen**, up to the one that closes
them. -/
theorem run_closes {marks : List Mark} {before : Option Mark}
    (closes : Closes Mark.parenthesis heading.attributeDepth before marks) :
    (Scan.heading heading).run marks = .heading { heading with attributeDepth := 0 } := by
  induction marks generalizing heading before with
  | nil =>
    have closed : heading.attributeDepth = 0 := by simpa using closes.depth_eq_zero
    rw [Scan.run_nil, ← closed]
  | cons mark rest ih =>
    have inside : heading.attributeDepth > 0 := by simpa using closes.depth_pos
    have tail := closes.tail
    cases mark with
    | token kind spelling =>
      have passed : heading.passToken kind spelling = heading := if_pos inside
      rw [Mark.parenthesis, Int.add_zero] at tail
      rw [Scan.run_cons, Scan.pass, passed]
      exact ih tail
    | character sign =>
      rw [Scan.run_cons, Scan.pass, passCharacter, if_pos inside]
      by_cases opens : sign = '('
      · rw [Mark.parenthesis, if_pos opens] at tail
        rw [if_pos opens]
        have deeper : Closes Mark.parenthesis ((heading.attributeDepth + 1 : Nat) : Int)
            (some (.character sign)) rest := by simpa using tail
        exact ih deeper
      by_cases ends : sign = ')'
      · rw [Mark.parenthesis, if_neg opens, if_pos ends] at tail
        rw [if_neg opens, if_pos ends]
        have lower : ((heading.attributeDepth - 1 : Nat) : Int) = heading.attributeDepth + -1 := by
          omega
        rw [← lower] at tail
        exact ih tail
      · rw [Mark.parenthesis, if_neg opens, if_neg ends, Int.add_zero] at tail
        rw [if_neg opens, if_neg ends]
        exact ih tail

/-- A fragment that is not text ends the waiting for arguments, or starts it anew. -/
theorem passToken_afterAttribute (heading : Heading) (outside : heading.attributeDepth = 0)
    (waits : Bool) (kind : FragmentKind) (spelling : String) :
    { heading with afterAttribute := waits }.passToken kind spelling =
      heading.passToken kind spelling := by
  unfold passToken
  split_ifs with inside counts
  · exact absurd outside (Nat.ne_of_gt inside)
  · cases kind <;> rfl
  · rfl

end Heading

/-! ## Attributes -/

/-- What can stand between the name of an attribute and the next fragment that is not text: blanks,
or arguments in parentheses with blanks around them. -/
inductive IsAttributeTail : List Mark → Prop
  | bare {blanks : List Mark} : (∀ mark ∈ blanks, mark.isBlank = true) → IsAttributeTail blanks
  | arguments (before inside after : List Mark) : (∀ mark ∈ before, mark.isBlank = true) →
    IsEnclosed Mark.parenthesis '(' inside → (∀ mark ∈ after, mark.isBlank = true) →
    IsAttributeTail (before ++ inside ++ after)

/-- An attribute as it stands before a declaration. -/
structure LeadingAttribute where
  name : Fragment
  tail : List Fragment
  named : name.kind = .attributeName
  follows : IsAttributeTail (marks tail)

/-- The fragments of an attribute. -/
def LeadingAttribute.fragments (leading : LeadingAttribute) : List Fragment :=
  leading.name :: leading.tail

/-- After the name of an attribute its arguments are passed over, and blanks around them. -/
theorem Heading.run_attributeTail (heading : Heading) (outside : heading.attributeDepth = 0)
    {tail : List Mark} (follows : IsAttributeTail tail) :
    ∃ waits, (Scan.heading { heading with afterAttribute := true }).run tail =
      .heading { heading with afterAttribute := waits } := by
  cases follows with
  | bare blank => exact ⟨true, run_blank { heading with afterAttribute := true } outside blank⟩
  | arguments before inside after blankBefore enclosed blankAfter =>
    cases inside with
    | nil => exact enclosed.elim
    | cons first rest =>
      obtain ⟨rfl, closes⟩ := enclosed
      have passed : (Scan.heading { heading with attributeDepth := 1, afterAttribute := false }).run
          rest = .heading { heading with attributeDepth := 0, afterAttribute := false } :=
        run_closes closes
      have waiting := run_blank { heading with afterAttribute := true } outside blankBefore
      refine ⟨false, ?_⟩
      rw [Scan.run_append, Scan.run_append, waiting, Scan.run_cons, Scan.pass, passCharacter,
        if_neg (by simp [outside]), if_pos rfl, if_pos rfl, passed, run_blank _ rfl blankAfter,
        ← outside]

/-- A whole attribute is passed over, but for the arguments that may still be waited for. -/
theorem LeadingAttribute.run_fragments (leading : LeadingAttribute) (waiting : Bool) :
    ∃ waits, (Scan.heading { afterAttribute := waiting }).run (marks leading.fragments) =
      .heading { afterAttribute := waits } := by
  have written : marks leading.fragments =
      .token .attributeName leading.name.spelling :: marks leading.tail := by
    rw [fragments, marks_cons, fragmentMarks, leading.named, if_neg (by simp)]
    rfl
  rw [written]
  exact Heading.run_attributeTail {} rfl leading.follows

theorem run_attributes (attributes : List LeadingAttribute) (waiting : Bool) :
    ∃ waits, (Scan.heading { afterAttribute := waiting }).run
        (marks (attributes.flatMap LeadingAttribute.fragments)) =
      .heading { afterAttribute := waits } := by
  induction attributes generalizing waiting with
  | nil => exact ⟨waiting, rfl⟩
  | cons leading others ih =>
    obtain ⟨between, passed⟩ := leading.run_fragments waiting
    rw [List.flatMap_cons, marks_append, Scan.run_append, passed]
    exact ih between

/-- **Leading attributes leave no trace**, with any number of arguments and whatever stands in
them. -/
theorem simplify_attributed (attributes : List LeadingAttribute) (declaration : List Fragment)
    (starts : ∀ fragment ∈ declaration.head?, fragment.kind ≠ .text) :
    simplify (attributes.flatMap LeadingAttribute.fragments ++ declaration) =
      simplify declaration := by
  obtain ⟨waits, passed⟩ := run_attributes attributes false
  have same : ((Scan.heading { afterAttribute := waits }).run (marks declaration)).finish =
      (Scan.start.run (marks declaration)).finish := by
    cases declaration with
    | nil => rfl
    | cons fragment rest =>
      have token : fragmentMarks fragment = [.token fragment.kind fragment.spelling] :=
        if_neg (starts fragment rfl)
      rw [marks_cons, token, List.singleton_append, Scan.run_cons, Scan.run_cons, Scan.pass,
        Heading.passToken_afterAttribute {} rfl]
      rfl
  rw [simplify, signature, marks_append, Scan.run_append, Scan.start, passed, same]
  rfl

/-- An attribute without arguments, one whose arguments hold a keyword, a name, a colon and an angle
bracket beside nested parentheses, and one with blanks and a cut before its arguments. -/
def drawAttributes : List LeadingAttribute :=
  [{  name := ⟨.attributeName, "@discardableResult", none⟩
      tail := [.text "\n"]
      named := rfl
      follows := .bare (by decide +kernel) },
    { name := ⟨.attributeName, "@available", some "s:available"⟩
      tail := [.text "(*, ", .keyword "deprecated", .text ", ", .identifier "message",
        .text ": (<", ⟨.string, "draw(in:)", none⟩, .text ")) "]
      named := rfl
      follows := .arguments []
        (marks [.text "(*, ", .keyword "deprecated", .text ", ", .identifier "message",
          .text ": (<", ⟨.string, "draw(in:)", none⟩, .text "))"]) [.character ' ']
        (by decide +kernel) (by decide +kernel) (by decide +kernel) },
    { name := ⟨.attributeName, "@objc", none⟩
      tail := [.text " ", .text "(", .identifier "drawWith", .text ":) "]
      named := rfl
      follows := .arguments [.character ' ']
        (marks [.text "(", .identifier "drawWith", .text ":)"]) [.character ' ']
        (by decide +kernel) (by decide +kernel) (by decide +kernel) }]

/-- Three attributes before a method, the last of them with the label of another parameter. -/
theorem simplify_attributed_draw :
    let declaration : List Fragment := [.keyword "func", .text " ", .identifier "draw", .text "(",
      .label "with", .text " ", ⟨.internalParameter, "pen", none⟩, .text ": ",
      ⟨.typeIdentifier, "Pen", some "s:Pen"⟩, .text ")"]
    (∀ fragment ∈ declaration.head?, fragment.kind ≠ .text) ∧
      simplify (drawAttributes.flatMap LeadingAttribute.fragments ++ declaration) =
        [.keyword "func", .text " ", .identifier "draw", .text "(", .label "with", .text ":)"] := by
  intro declaration
  have starts : ∀ fragment ∈ declaration.head?, fragment.kind ≠ .text := by
    simp [declaration, Fragment.keyword]
  have bare : simplify declaration =
      [.keyword "func", .text " ", .identifier "draw", .text "(", .label "with", .text ":)"] := by
    decide +kernel
  exact ⟨starts, (simplify_attributed drawAttributes declaration starts).trans bare⟩

/-! ## Modifiers -/

namespace Scan

/-- A parameter list is found with the keyword and the name that led to it. -/
theorem finish_run_parameters (keyword name : Option String) (marks : List Mark)
    (list : ParameterList) :
    ∃ labels, ((parameters keyword name list).run marks).finish =
      { keyword, name, labels := some labels } := by
  rcases run_parameters keyword name marks list with ⟨labels, ended⟩ | ⟨next, further⟩
  · exact ⟨labels, by rw [ended]; rfl⟩
  · exact ⟨next.finish, by rw [further]; rfl⟩

/-- A name that has been found stays. -/
theorem name_finish_pass {scan : Scan} {name : String} (named : scan.finish.name = some name)
    (mark : Mark) : (scan.pass mark).finish.name = some name := by
  cases scan with
  | done found => exact named
  | parameters keyword other list =>
    obtain ⟨labels, finish⟩ := finish_run_parameters keyword other [mark] list
    rw [run_cons, run_nil] at finish
    rw [finish]
    exact named
  | heading opening =>
    have own : opening.name = some name := named
    cases mark with
    | token kind spelling =>
      simp only [pass, Heading.passToken, own]
      split_ifs <;> simp [finish, Heading.signature, own] at *
    | character sign =>
      simp only [pass, Heading.passCharacter, Heading.passPlain]
      split_ifs <;> exact named

theorem name_finish_run {scan : Scan} {name : String} (named : scan.finish.name = some name)
    (marks : List Mark) : (scan.run marks).finish.name = some name := by
  induction marks generalizing scan with
  | nil => exact named
  | cons mark rest ih => exact ih (name_finish_pass named mark)

end Scan

/-- A modifier as it stands before a declaration, with a space after it. -/
structure Modifier where
  word : Fragment
  /-- The marks of the argument with its parentheses, if the modifier has one. -/
  argument : Option (List Mark)
  tail : List Fragment
  isKeyword : word.kind = .keyword
  enclosed : ∀ inside ∈ argument, IsEnclosed Mark.parenthesis '(' inside
  follows : marks tail = argument.getD [] ++ [.character ' ']

namespace Modifier

/-- The fragments of a modifier. -/
def fragments (modifier : Modifier) : List Fragment :=
  modifier.word :: modifier.tail

theorem marks_fragments (modifier : Modifier) : marks modifier.fragments =
    .token .keyword modifier.word.spelling :: (modifier.argument.getD [] ++ [.character ' ']) := by
  rw [fragments, marks_cons, fragmentMarks, modifier.isKeyword, if_neg (by simp), modifier.follows]
  rfl

/-- A modifier without an argument is remembered as a keyword. -/
theorem run_fragments {modifier : Modifier} (bare : modifier.argument = none)
    (keyword : Option String) :
    (Scan.heading { keyword }).run (marks modifier.fragments) =
      .heading { keyword := some modifier.word.spelling } := by
  rw [marks_fragments, bare]
  rfl

/-- The argument of a modifier is taken for the parameter list of a declaration without a name,
whatever comes after. -/
theorem finish_run_argument {modifier : Modifier} (present : modifier.argument.isSome = true)
    (keyword : Option String) (after : List Mark) :
    ∃ labels, ((Scan.heading { keyword }).run (marks modifier.fragments ++ after)).finish =
      ⟨some modifier.word.spelling, none, some labels⟩ := by
  obtain ⟨inside, given⟩ := Option.isSome_iff_exists.1 present
  have enclosed := modifier.enclosed inside given
  rw [marks_fragments, given]
  cases inside with
  | nil => exact enclosed.elim
  | cons first rest =>
    obtain ⟨rfl, -⟩ := enclosed
    exact Scan.finish_run_parameters _ _ (rest ++ [.character ' '] ++ after) {}

end Modifier

/-- Modifiers without arguments are forgotten but for the last. -/
theorem run_modifiers {modifiers : List Modifier}
    (bare : ∀ modifier ∈ modifiers, modifier.argument = none) (keyword : Option String) :
    ∃ last, (Scan.heading { keyword }).run (marks (modifiers.flatMap Modifier.fragments)) =
      .heading { keyword := last } := by
  induction modifiers generalizing keyword with
  | nil => exact ⟨keyword, rfl⟩
  | cons modifier others ih =>
    obtain ⟨first, rest⟩ := List.forall_mem_cons.1 bare
    rw [List.flatMap_cons, marks_append, Scan.run_append, Modifier.run_fragments first]
    exact ih rest _

/-- With an argument before it, the name of a declaration is not found, nor its keyword. -/
theorem finish_run_modifiers {modifiers : List Modifier} {modifier : Modifier}
    (first : modifiers.find? (·.argument.isSome) = some modifier) (keyword : Option String)
    (after : List Mark) :
    ∃ labels, ((Scan.heading { keyword }).run
        (marks (modifiers.flatMap Modifier.fragments) ++ after)).finish =
      ⟨some modifier.word.spelling, none, some labels⟩ := by
  induction modifiers generalizing keyword with
  | nil => cases first
  | cons other others ih =>
    rw [List.flatMap_cons, marks_append, List.append_assoc]
    by_cases present : other.argument.isSome = true
    · have own : other = modifier := by simpa [present] using first
      rw [← own]
      exact Modifier.finish_run_argument present keyword _
    · have bare : other.argument = none := by simpa using present
      rw [Scan.run_append, Modifier.run_fragments bare]
      exact ih (by simpa [bare] using first) _

/-- **The first modifier with an argument is taken for the whole declaration.** -/
theorem signature_argument {modifiers : List Modifier} {modifier : Modifier}
    (first : modifiers.find? (·.argument.isSome) = some modifier) (declaration : List Fragment) :
    ∃ labels, signature (modifiers.flatMap Modifier.fragments ++ declaration) =
      ⟨some modifier.word.spelling, none, some labels⟩ := by
  rw [signature, marks_append]
  exact finish_run_modifiers first none (marks declaration)

/-- **Modifiers leave no trace exactly if none of them has an argument.** -/
theorem simplify_modified_iff (modifiers : List Modifier) (declaration : List Fragment)
    {keyword name : String} {after : List Mark}
    (starts : marks declaration =
      .token .keyword keyword :: .character ' ' :: .token .identifier name :: after) :
    simplify (modifiers.flatMap Modifier.fragments ++ declaration) = simplify declaration ↔
      ∀ modifier ∈ modifiers, modifier.argument = none := by
  constructor
  · intro same modifier member
    refine Option.not_isSome_iff_eq_none.1 fun present => ?_
    obtain ⟨first, stands⟩ : ∃ first, modifiers.find? (·.argument.isSome) = some first :=
      Option.isSome_iff_exists.1 (List.find?_isSome.2 ⟨modifier, member, present⟩)
    obtain ⟨labels, lost⟩ := signature_argument stands declaration
    have found : (signature declaration).name = some name := by
      rw [signature, starts]
      have named : (Scan.heading { keyword, name }).finish.name = some name := rfl
      exact Scan.name_finish_run named after
    rw [← simplify_eq_iff.1 same, lost] at found
    cases found
  · intro bare
    obtain ⟨last, passed⟩ := run_modifiers bare none
    rw [simplify_eq_iff, signature, marks_append, Scan.run_append, Scan.start, passed, signature,
      starts]
    rfl

/-- A modifier without an argument. -/
def plainModifier (spelling : String) : Modifier where
  word := .keyword spelling
  argument := none
  tail := [.text " "]
  isKeyword := rfl
  enclosed := by simp
  follows := by decide +kernel

theorem simplify_modified_iff_draw :
    let modifiers := [plainModifier "public", plainModifier "static"]
    let declaration : List Fragment :=
      [⟨.keyword, "func", some "s:func"⟩, .text " ", .identifier "draw", .text "()"]
    marks declaration = .token .keyword "func" :: .character ' ' :: .token .identifier "draw" ::
        [.character '(', .character ')'] ∧
      simplify (modifiers.flatMap Modifier.fragments ++ declaration) =
        simplify declaration := by
  intro modifiers declaration
  have starts : marks declaration = .token .keyword "func" :: .character ' ' ::
      .token .identifier "draw" :: [.character '(', .character ')'] := by
    decide +kernel
  refine ⟨starts, (simplify_modified_iff modifiers declaration starts).2 ?_⟩
  simp [modifiers, plainModifier]

/-- A modifier with an argument, and the space after it in one fragment with the parenthesis. -/
def unownedModifier : Modifier where
  word := .keyword "unowned"
  argument := some (marks [.text "(", .keyword "safe", .text ")"])
  tail := [.text "(", .keyword "safe", .text ") "]
  isKeyword := rfl
  enclosed := by
    rintro inside ⟨⟩
    decide +kernel
  follows := by decide +kernel

/-- With an argument of a modifier before it, a property is simplified to a function without a name,
and without it to itself. -/
theorem simplify_modified_unowned :
    let declaration : List Fragment := [.keyword "var", .text " ", .identifier "owner"]
    simplify (unownedModifier.fragments ++ declaration) =
        [.keyword "unowned", .text "(", .label "_", .text ":)"] ∧
      simplify declaration = declaration ∧
      simplify (unownedModifier.fragments ++ declaration) ≠ simplify declaration := by
  decide +kernel

end ApiAtlas.Declaration
