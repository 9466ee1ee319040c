import ApiAtlas.Proofs.Json.Numeral
import ApiAtlas.Proofs.Json.Quoting
import ApiAtlas.Proofs.Json.Values

/-!
# Spellings of values

A value has many spellings, which differ in the blanks between their parts
(`Spells`). The reader takes each of them for the same value and leaves what
stands behind it (`Spells.isRead`): by induction on the spelling, where the count
that bounds the reader's own calls is spent no faster than the text.

Written without blanks (`spells_compact`) or in lines (`spells_pretty`) a value
is spelt, if all its numbers are whole (`Json.isExact`). So what is written is
read as itself (`Document.ofText_compact`, `Document.ofText_pretty`).
-/

set_option autoImplicit false

namespace ApiAtlas

namespace Json.Reader

open Text (Glyph)

/-! ## Blanks -/

/-- Characters that may stand between the parts of a value. -/
def AreBlank (characters : List Char) : Prop :=
  ∀ character ∈ characters, isSpace (some character) = true

theorem areBlank_nil : AreBlank [] :=
  fun _ member => absurd member List.not_mem_nil

/-- Blanks are skipped. -/
theorem skipSpace_append {blanks : List Char} (blank : AreBlank blanks) (input : List Glyph) :
    skipSpace (blanks.map some ++ input) = skipSpace input := by
  induction blanks with
  | nil => rfl
  | cons character rest ih =>
    have own := blank character (List.mem_cons_self ..)
    have further := ih fun other member => blank other (List.mem_cons_of_mem _ member)
    rw [List.map_cons, List.cons_append, ← further]
    exact List.dropWhile_cons_of_pos own

/-- What starts with no blank is not skipped. -/
theorem skipSpace_cons {glyph : Glyph} (printed : isSpace glyph = false) (rest : List Glyph) :
    skipSpace (glyph :: rest) = glyph :: rest :=
  List.dropWhile_cons_of_neg (Bool.eq_false_iff.1 printed)

/-- Blanks before a value do not matter. -/
theorem readValue_append {blanks : List Char} (blank : AreBlank blanks) (fuel : Nat)
    (input : List Glyph) :
    readValue fuel (blanks.map some ++ input) = readValue fuel input := by
  cases fuel with
  | zero => rfl
  | succ fuel => rw [readValue, skipSpace_append blank, ← readValue]

/-- A numeral ends at a glyph that belongs to none. -/
theorem endsNumeral_cons {glyph : Glyph} (noDigit : digit? glyph = none)
    (other : glyph ≠ some '.' ∧ glyph ≠ some 'e' ∧ glyph ≠ some 'E') (rest : List Glyph) :
    EndsNumeral (glyph :: rest) := by
  rintro first ⟨⟩
  exact ⟨noDigit, other⟩

/-- A numeral ends before blanks. -/
theorem endsNumeral_append {blanks : List Char} (blank : AreBlank blanks) {input : List Glyph}
    (ends : EndsNumeral input) : EndsNumeral (blanks.map some ++ input) := by
  cases blanks with
  | nil => exact ends
  | cons character rest =>
    have own := blank character (List.mem_cons_self ..)
    simp only [isSpace, Bool.or_eq_true, decide_eq_true_eq, Option.some.injEq] at own
    rcases own with ((rfl | rfl) | rfl) | rfl <;> exact endsNumeral_cons rfl (by decide) _

/-! ## Spellings -/

/-- What a stretch of a text spells: a value, or the items or members that are still to come with
the closing bracket behind them. -/
inductive Part
  | value (value : Json)
  | items (isFirst : Bool) (items : List Json)
  | members (isFirst : Bool) (members : List (String × Json))

/-- What stands before an item or a member: nothing before the first, and a comma and blanks before
the others. -/
def separator (isFirst : Bool) (blanks : List Char) : List Char :=
  if isFirst then [] else ',' :: blanks

/-- The spellings of values without doubles, with blanks between their parts. -/
inductive Spells : Part → List Char → Prop
  | null : Spells (.value .null) ['n', 'u', 'l', 'l']
  | yes : Spells (.value (.boolean true)) ['t', 'r', 'u', 'e']
  | no : Spells (.value (.boolean false)) ['f', 'a', 'l', 's', 'e']
  | number (count : WholeNumber) :
      Spells (.value (.number (.whole count))) (numberText (.whole count)).toList
  | text (text : String) : Spells (.value (.text text)) (quoted text).toList
  | array {items : List Json} {inside : List Char} :
      Spells (.items true items) inside → Spells (.value (.array items)) ('[' :: inside)
  | object {members : List (String × Json)} {inside : List Char} :
      Spells (.members true members) inside → Spells (.value (.object members)) ('\x7b' :: inside)
  | noItem {isFirst : Bool} {blanks : List Char} :
      AreBlank blanks → Spells (.items isFirst []) (blanks ++ [']'])
  | item {isFirst : Bool} {item : Json} {rest : List Json} {before behind own others : List Char} :
      AreBlank before → AreBlank behind → Spells (.value item) own →
        Spells (.items false rest) others →
          Spells (.items isFirst (item :: rest))
            (before ++ (separator isFirst behind ++ (own ++ others)))
  | noMember {isFirst : Bool} {blanks : List Char} :
      AreBlank blanks → Spells (.members isFirst []) (blanks ++ ['\x7d'])
  | member {isFirst : Bool} {key : String} {value : Json} {rest : List (String × Json)}
      {before behind around own others : List Char} :
      AreBlank before → AreBlank behind → AreBlank around → Spells (.value value) own →
        Spells (.members false rest) others →
          Spells (.members isFirst ((key, value) :: rest))
            (before ++ (separator isFirst behind ++
              ((quoted key).toList ++ ':' :: (around ++ (own ++ others)))))

/-! ## Reading -/

/-- A number starts with a minus sign or a digit. -/
theorem exists_numberText (count : WholeNumber) :
    ∃ first others, (numberText (.whole count)).toList = first :: others ∧
      (first = '-' ∨ first.isDigit = true) := by
  rw [numberText, toList_toString]
  split
  · exact ⟨'-', _, rfl, .inl rfl⟩
  · cases digits : Nat.toDigits 10 count.value.natAbs with
    | nil => exact absurd digits Nat.toDigits_ne_nil
    | cons digit others =>
      refine ⟨digit, others, rfl, .inr ?_⟩
      exact Nat.isDigit_of_mem_toDigits (by decide) (by decide) (digits ▸ List.mem_cons_self ..)

/-- A character that may start a value inside an array. -/
structure Opens (first : Char) : Prop where
  printed : isSpace (some first) = false
  noEnd : first ≠ ']'

theorem opens_of_number {first : Char} (starts : first = '-' ∨ first.isDigit = true) :
    Opens first ∧ first ≠ '[' ∧ first ≠ '\x7b' := by
  rcases starts with rfl | isDigit
  · exact ⟨⟨by decide, by decide⟩, by decide, by decide⟩
  · have other : ∀ character : Char, character.isDigit = false → first ≠ character := by
      rintro character no rfl
      rw [isDigit] at no
      cases no
    refine ⟨⟨?_, other _ (by decide)⟩, other _ (by decide), other _ (by decide)⟩
    simp only [isSpace, Option.some.injEq, Bool.or_eq_false_iff, decide_eq_false_iff_not]
    exact ⟨⟨⟨other _ (by decide), other _ (by decide)⟩, other _ (by decide)⟩, other _ (by decide)⟩

/-- A text starts and ends with a quotation mark. -/
theorem toList_quoted (text : String) :
    (quoted text).toList = '"' :: (text.toList.flatMap escaped ++ ['"']) := by
  simp only [quoted, String.toList_append, String.toList_ofList]
  rfl

/-- No value starts with a blank or with a closing bracket. -/
theorem Spells.opens {value : Json} {own : List Char} (spelt : Spells (.value value) own) :
    ∃ first others, own = first :: others ∧ Opens first := by
  cases spelt with
  | null | yes | no | array _ | object _ => exact ⟨_, _, rfl, by decide, by decide⟩
  | text text => exact ⟨'"', _, toList_quoted text, by decide, by decide⟩
  | number count =>
    obtain ⟨first, others, written, starts⟩ := exists_numberText count
    exact ⟨first, others, written, (opens_of_number starts).1⟩

/-- A value that starts with no bracket is neither an array nor an object. -/
theorem readValue_scalar {first : Char} (printed : isSpace (some first) = false)
    (noArray : first ≠ '[') (noObject : first ≠ '\x7b') (fuel : Nat) (rest : List Glyph) :
    readValue (fuel + 1) (some first :: rest) = readScalar (some first :: rest) := by
  rw [readValue, skipSpace_cons printed]
  split
  · next same => cases same; exact absurd rfl noArray
  · next same => cases same; exact absurd rfl noObject
  · rfl

/-- An item starts at the first glyph that is no blank, behind the comma if it is not the first. -/
theorem itemStart_separator {first : Char} (opens : Opens first) {behind : List Char}
    (blank : AreBlank behind) (isFirst : Bool) (input : List Glyph) :
    ∃ glyph rest, (separator isFirst behind).map some ++ some first :: input = glyph :: rest ∧
      isSpace glyph = false ∧ glyph ≠ some ']' ∧
        itemStart isFirst (glyph :: rest) = .ok (some first :: input) := by
  have noEnd : (some first : Glyph) ≠ some ']' := fun same => opens.noEnd (Option.some.inj same)
  cases isFirst with
  | true => exact ⟨some first, input, rfl, opens.printed, noEnd, rfl⟩
  | false =>
    refine ⟨some ',', behind.map some ++ some first :: input, rfl, by decide, by decide, ?_⟩
    simp only [itemStart, Bool.false_eq_true, if_false, skipSpace_append blank,
      skipSpace_cons opens.printed]
    split
    · next none => cases none
    · next same => cases same; exact absurd rfl noEnd
    · rfl

/-- An item is read behind its separator, and the further items behind it. -/
theorem readItems_item {first : Char} (opens : Opens first) {before behind : List Char}
    (blankBefore : AreBlank before) (blankBehind : AreBlank behind) (isFirst : Bool) {fuel : Nat}
    {input rest : List Glyph} {item : Draft}
    (read : readValue fuel (some first :: input) = (item, some rest)) :
    readItems (fuel + 1) isFirst
        (before.map some ++ ((separator isFirst behind).map some ++ some first :: input)) =
      (item :: (readItems fuel false rest).1, (readItems fuel false rest).2) := by
  obtain ⟨glyph, further, same, printed, noEnd, start⟩ :=
    itemStart_separator opens blankBehind isFirst input
  rw [same, readItems, skipSpace_append blankBefore, skipSpace_cons printed]
  split
  · next none => cases none
  · next closed => cases closed; exact absurd rfl noEnd
  · simp only [start, read]

/-- A key starts at the first glyph that is no blank, behind the comma if it is not the first. -/
theorem keyStart_separator {behind : List Char} (blank : AreBlank behind) (isFirst : Bool)
    (input : List Glyph) :
    ∃ glyph rest, (separator isFirst behind).map some ++ some '"' :: input = glyph :: rest ∧
      isSpace glyph = false ∧ glyph ≠ some '\x7d' ∧
        keyStart isFirst (glyph :: rest) = .ok input := by
  cases isFirst with
  | true => exact ⟨some '"', input, rfl, by decide, by decide, rfl⟩
  | false =>
    refine ⟨some ',', behind.map some ++ some '"' :: input, rfl, by decide, by decide, ?_⟩
    have printed : isSpace (some '"') = false := by decide
    simp only [keyStart, Bool.false_eq_true, if_false, skipSpace_append blank,
      skipSpace_cons printed]

/-- A member is read behind its separator, and the further members behind it. -/
theorem readMembers_member {before behind : List Char} (blankBefore : AreBlank before)
    (blankBehind : AreBlank behind) (isFirst : Bool) (key : String) {fuel : Nat}
    {input rest : List Glyph} {value : Draft} (read : readValue fuel input = (value, some rest)) :
    readMembers (fuel + 1) isFirst
        (before.map some ++ ((separator isFirst behind).map some ++
          ((quoted key).toList.map some ++ some ':' :: input))) =
      ((.text key, value) :: (readMembers fuel false rest).1,
        (readMembers fuel false rest).2) := by
  have written : (quoted key).toList.map some ++ some ':' :: input =
      some '"' :: ((key.toList.flatMap escaped).map some ++ some '"' :: some ':' :: input) := by
    rw [toList_quoted]
    simp
  have colon : isSpace (some ':') = false := by decide
  rw [written]
  obtain ⟨glyph, further, same, printed, noEnd, start⟩ := keyStart_separator blankBehind isFirst
    ((key.toList.flatMap escaped).map some ++ some '"' :: some ':' :: input)
  rw [same, readMembers, skipSpace_append blankBefore, skipSpace_cons printed]
  split
  · next none => cases none
  · next closed => cases closed; exact absurd rfl noEnd
  · simp only [start, readText_written, skipSpace_cons colon, read]

/-- What it means that the reader takes a stretch of a text for what it spells. -/
def IsRead : Part → List Char → Prop
  | .value value, own => ∀ (fuel : Nat) (rest : List Glyph), EndsNumeral rest →
      2 * (own.length + rest.length) + 2 ≤ fuel →
        readValue fuel (own.map some ++ rest) = (value.draft, some rest)
  | .items isFirst items, own => ∀ (fuel : Nat) (rest : List Glyph),
      2 * (own.length + rest.length) + 3 ≤ fuel →
        readItems fuel isFirst (own.map some ++ rest) = (draftItems items, some rest)
  | .members isFirst members, own => ∀ (fuel : Nat) (rest : List Glyph),
      2 * (own.length + rest.length) + 3 ≤ fuel →
        readMembers fuel isFirst (own.map some ++ rest) = (draftMembers members, some rest)

/-- A numeral ends before what follows a value in an array or an object. -/
theorem Spells.endsNumeral {part : Part} {own : List Char} (spelt : Spells part own)
    (isRest : (∃ items, part = .items false items) ∨ ∃ members, part = .members false members)
    (rest : List Glyph) : EndsNumeral (own.map some ++ rest) := by
  cases spelt with
  | null | yes | no | number _ | text _ | array _ | object _ => simp at isRest
  | noItem blank | noMember blank =>
    rw [List.map_append, List.append_assoc]
    exact endsNumeral_append blank (endsNumeral_cons (by decide) (by decide) _)
  | item blank _ _ _ | member blank _ _ _ _ =>
    obtain rfl : _ = false := by simpa using isRest
    rw [List.map_append, List.append_assoc]
    exact endsNumeral_append blank (endsNumeral_cons (by decide) (by decide) _)

/-- **Every spelling of a value is read as that value**, and what stands behind it is left. -/
theorem Spells.isRead {part : Part} {own : List Char} (spelt : Spells part own) :
    IsRead part own := by
  -- The count is spent by one for each step into or along a bracket, where the text shrinks too.
  induction spelt with
  | null | yes | no =>
    intro fuel rest ends enough
    obtain ⟨fuel, rfl⟩ : ∃ further, fuel = further + 1 := ⟨fuel - 1, by omega⟩
    rfl
  | number count =>
    intro fuel rest ends enough
    obtain ⟨fuel, rfl⟩ : ∃ further, fuel = further + 1 := ⟨fuel - 1, by omega⟩
    obtain ⟨first, others, written, starts⟩ := exists_numberText count
    obtain ⟨opens, noArray, noObject⟩ := opens_of_number starts
    have read := readScalar_numberText count ends
    rw [written] at read ⊢
    exact (readValue_scalar opens.printed noArray noObject fuel _).trans read
  | text text =>
    intro fuel rest ends enough
    obtain ⟨fuel, rfl⟩ : ∃ further, fuel = further + 1 := ⟨fuel - 1, by omega⟩
    rw [toList_quoted, List.map_cons, List.cons_append,
      readValue_scalar (by decide) (by decide) (by decide), List.map_append, List.append_assoc]
    exact readText_written text rest
  | array inside ih =>
    intro fuel rest ends enough
    obtain ⟨fuel, rfl⟩ : ∃ further, fuel = further + 1 := ⟨fuel - 1, by omega⟩
    have read := ih fuel rest (by simp only [List.length_cons] at enough; omega)
    rw [List.map_cons, List.cons_append, readValue, skipSpace_cons (by decide)]
    simp only [read]
    rfl
  | object inside ih =>
    intro fuel rest ends enough
    obtain ⟨fuel, rfl⟩ : ∃ further, fuel = further + 1 := ⟨fuel - 1, by omega⟩
    have read := ih fuel rest (by simp only [List.length_cons] at enough; omega)
    rw [List.map_cons, List.cons_append, readValue, skipSpace_cons (by decide)]
    simp only [read]
    rfl
  | noItem blank =>
    intro fuel rest enough
    obtain ⟨fuel, rfl⟩ : ∃ further, fuel = further + 1 := ⟨fuel - 1, by omega⟩
    rw [List.map_append, List.append_assoc, readItems, skipSpace_append blank]
    rfl
  | noMember blank =>
    intro fuel rest enough
    obtain ⟨fuel, rfl⟩ : ∃ further, fuel = further + 1 := ⟨fuel - 1, by omega⟩
    rw [List.map_append, List.append_assoc, readMembers, skipSpace_append blank]
    rfl
  | @item isFirst item others before behind own further blankBefore blankBehind spelt remaining
      ih ihRest =>
    intro fuel rest enough
    obtain ⟨fuel, rfl⟩ : ∃ further, fuel = further + 1 := ⟨fuel - 1, by omega⟩
    obtain ⟨first, more, rfl, opens⟩ := spelt.opens
    simp only [List.length_append, List.length_cons] at enough
    have read := ih fuel (further.map some ++ rest)
      (remaining.endsNumeral (.inl ⟨others, rfl⟩) rest)
      (by simp only [List.length_append, List.length_map, List.length_cons]; omega)
    rw [List.map_cons, List.cons_append] at read
    have readRest := ihRest fuel rest (by omega)
    have stepped := readItems_item opens blankBefore blankBehind isFirst read
    simp only [List.map_append, List.map_cons, List.append_assoc, List.cons_append]
    rw [stepped, readRest]
    rfl
  | @member isFirst key value others before behind around own further blankBefore blankBehind
      blankAround spelt remaining ih ihRest =>
    intro fuel rest enough
    obtain ⟨fuel, rfl⟩ : ∃ further, fuel = further + 1 := ⟨fuel - 1, by omega⟩
    simp only [List.length_append, List.length_cons] at enough
    have read := ih fuel (further.map some ++ rest)
      (remaining.endsNumeral (.inr ⟨others, rfl⟩) rest)
      (by simp only [List.length_append, List.length_map]; omega)
    rw [← readValue_append blankAround] at read
    have readRest := ihRest fuel rest (by omega)
    have stepped := readMembers_member blankBefore blankBehind isFirst key read
    simp only [List.map_append, List.map_cons, List.append_assoc, List.cons_append]
    rw [stepped, readRest]
    rfl

/-! ## Writing -/

/-- Further items are spelt behind commas if each of them is spelt. -/
theorem Spells.further {items : List Json} {blanks : List Char} (blank : AreBlank blanks)
    (print : Json → List Char)
    (spelt : ∀ item ∈ items, Spells (.value item) (print item))
    {others : List Char} (closed : Spells (.items false []) others) :
    Spells (.items false items)
      ((items.flatMap fun item => ',' :: (blanks ++ print item)) ++ others) := by
  induction items with
  | nil => exact closed
  | cons item rest ih =>
    have first := spelt item (List.mem_cons_self ..)
    have remaining := ih fun other member => spelt other (List.mem_cons_of_mem _ member)
    have whole : Spells (.items false (item :: rest)) _ :=
      .item areBlank_nil blank first remaining
    simpa [separator] using whole

/-- Further members are spelt behind commas if the value of each of them is spelt. -/
theorem Spells.furtherMembers {members : List (String × Json)} {blanks around : List Char}
    (blank : AreBlank blanks) (blankAround : AreBlank around) (print : Json → List Char)
    (spelt : ∀ member ∈ members, Spells (.value member.2) (print member.2))
    {others : List Char} (closed : Spells (.members false []) others) :
    Spells (.members false members)
      ((members.flatMap fun member =>
          ',' :: (blanks ++ ((quoted member.1).toList ++ ':' :: (around ++ print member.2)))) ++
        others) := by
  induction members with
  | nil => exact closed
  | cons member rest ih =>
    have first := spelt member (List.mem_cons_self ..)
    have remaining := ih fun other within => spelt other (List.mem_cons_of_mem _ within)
    have whole : Spells (.members false ((member.1, member.2) :: rest)) _ :=
      .member areBlank_nil blank blankAround first remaining
    simpa [separator] using whole

/-- An array is spelt if each of its items is, with blanks before each of them and behind the
last. -/
theorem Spells.arrayOf {item : Json} {rest : List Json} {inner outer : List Char}
    (blankInner : AreBlank inner) (blankOuter : AreBlank outer) (print : Json → List Char)
    (spelt : ∀ held ∈ item :: rest, Spells (.value held) (print held)) :
    Spells (.value (.array (item :: rest)))
      ('[' :: (inner ++ (print item ++
        ((rest.flatMap fun other => ',' :: (inner ++ print other)) ++ (outer ++ [']']))))) := by
  have first := spelt item (List.mem_cons_self ..)
  have others := Spells.further blankInner print
    (fun other member => spelt other (List.mem_cons_of_mem _ member)) (.noItem blankOuter)
  have whole : Spells (.items true (item :: rest)) _ :=
    .item blankInner areBlank_nil first others
  rw [separator, if_pos rfl, List.nil_append] at whole
  exact .array whole

/-- An object is spelt if the value of each of its members is, with blanks before each member,
before each value and behind the last one. -/
theorem Spells.objectOf {member : String × Json} {rest : List (String × Json)}
    {inner around outer : List Char} (blankInner : AreBlank inner) (blankAround : AreBlank around)
    (blankOuter : AreBlank outer) (print : Json → List Char)
    (spelt : ∀ held ∈ member :: rest, Spells (.value held.2) (print held.2)) :
    Spells (.value (.object (member :: rest)))
      ('\x7b' :: (inner ++ ((quoted member.1).toList ++ ':' :: (around ++ (print member.2 ++
        ((rest.flatMap fun other => ',' :: (inner ++
          ((quoted other.1).toList ++ ':' :: (around ++ print other.2)))) ++
            (outer ++ ['\x7d']))))))) := by
  have first := spelt member (List.mem_cons_self ..)
  have others := Spells.furtherMembers blankInner blankAround print
    (fun other within => spelt other (List.mem_cons_of_mem _ within)) (.noMember blankOuter)
  have whole : Spells (.members true ((member.1, member.2) :: rest)) _ :=
    .member blankInner areBlank_nil blankAround first others
  rw [separator, if_pos rfl, List.nil_append] at whole
  exact .object whole

/-- The text of items without blanks: the first one, and the others behind commas. -/
theorem toList_compactItems (item : Json) (rest : List Json) :
    (compactItems (item :: rest)).toList =
      item.compact.toList ++ rest.flatMap fun other => ',' :: other.compact.toList := by
  induction rest generalizing item with
  | nil => simp [compactItems]
  | cons next others ih =>
    have written : compactItems (item :: next :: others) =
        item.compact ++ "," ++ compactItems (next :: others) := rfl
    rw [written, String.toList_append, String.toList_append, ih]
    simp

/-- The text of members without blanks: the first one, and the others behind commas. -/
theorem toList_compactMembers (member : String × Json) (rest : List (String × Json)) :
    (compactMembers (member :: rest)).toList =
      (quoted member.1).toList ++ ':' :: (member.2.compact.toList ++ rest.flatMap fun other =>
        ',' :: ((quoted other.1).toList ++ ':' :: other.2.compact.toList)) := by
  induction rest generalizing member with
  | nil => simp [compactMembers]
  | cons next others ih =>
    have written : compactMembers (member :: next :: others) =
        quoted member.1 ++ ":" ++ member.2.compact ++ "," ++ compactMembers (next :: others) := rfl
    rw [written, String.toList_append, String.toList_append, String.toList_append,
      String.toList_append, ih]
    simp

/-- The word for null is a spelling of it. -/
theorem spells_null : Spells (.value .null) "null".toList := by
  have letters : "null".toList = ['n', 'u', 'l', 'l'] := by decide
  rw [letters]
  exact .null

/-- The words for truth values are spellings of them. -/
theorem spells_boolean (value : Bool) :
    Spells (.value (.boolean value)) (if value then "true" else "false").toList := by
  have yes : "true".toList = ['t', 'r', 'u', 'e'] := by decide
  have no : "false".toList = ['f', 'a', 'l', 's', 'e'] := by decide
  cases value with
  | true =>
    rw [if_pos rfl, yes]
    exact .yes
  | false =>
    rw [if_neg Bool.false_ne_true, no]
    exact .no

/-- **A value without doubles is spelt when it is written without blanks.** -/
theorem spells_compact {value : Json} (exact : value.isExact = true) :
    Spells (.value value) value.compact.toList := by
  induction value using Json.induction with
  | null => exact spells_null
  | boolean value => exact spells_boolean value
  | number value =>
    cases value with
    | whole count => exact .number count
    | double real => cases exact
  | text written => exact .text written
  | array items ih =>
    rw [isExact_array] at exact
    cases items with
    | nil =>
      have written : (compact (.array [])).toList = ['[', ']'] := by decide
      rw [written]
      exact .array (.noItem areBlank_nil)
    | cons item rest =>
      have whole := Spells.arrayOf areBlank_nil areBlank_nil (fun held => held.compact.toList)
        fun held member => ih held member (exact held member)
      simpa [compact, toList_compactItems] using whole
  | object members ih =>
    rw [isExact_object] at exact
    cases members with
    | nil =>
      have written : (compact (.object [])).toList = ['\x7b', '\x7d'] := by decide
      rw [written]
      exact .object (.noMember areBlank_nil)
    | cons member rest =>
      have whole := Spells.objectOf areBlank_nil areBlank_nil areBlank_nil
        (fun held => held.compact.toList) fun held within => ih held within (exact held within)
      simpa [compact, toList_compactMembers] using whole

/-- A line starts with blanks. -/
theorem areBlank_lineStart (level : Nat) : AreBlank (lineStart level).toList := by
  intro character member
  rw [lineStart, String.toList_ofList, List.mem_cons] at member
  rcases member with rfl | indented
  · decide
  · rw [(List.mem_replicate.1 indented).2]
    decide

/-- The text of further items in lines. -/
theorem toList_prettyItems (level : Nat) (items : List Json) :
    (prettyItems level items).toList = items.flatMap fun item =>
      ',' :: ((lineStart level).toList ++ (prettyAt level item).toList) := by
  induction items with
  | nil => rfl
  | cons item rest ih => simp [prettyItems, ih]

/-- The text of further members in lines. -/
theorem toList_prettyMembers (level : Nat) (members : List (String × Json)) :
    (prettyMembers level members).toList = members.flatMap fun member =>
      ',' :: ((lineStart level).toList ++
        ((quoted member.1).toList ++ ':' :: ([' '] ++ (prettyAt level member.2).toList))) := by
  induction members with
  | nil => rfl
  | cons member rest ih => simp [prettyMembers, ih]

/-- **A value without doubles is spelt when it is written in lines.** -/
theorem spells_prettyAt {value : Json} (exact : value.isExact = true) (level : Nat) :
    Spells (.value value) (value.prettyAt level).toList := by
  induction value using Json.induction generalizing level with
  | null =>
    rw [prettyAt]
    exact spells_null
  | boolean value =>
    rw [prettyAt]
    exact spells_boolean value
  | number value =>
    rw [prettyAt]
    cases value with
    | whole count => exact .number count
    | double real => cases exact
  | text written =>
    rw [prettyAt]
    exact .text written
  | array items ih =>
    rw [isExact_array] at exact
    cases items with
    | nil =>
      have written : (prettyAt level (.array [])).toList = ['[', ']'] := by
        rw [prettyAt]
        decide
      rw [written]
      exact .array (.noItem areBlank_nil)
    | cons item rest =>
      have whole := Spells.arrayOf (areBlank_lineStart (level + 1)) (areBlank_lineStart level)
        (fun held => (held.prettyAt (level + 1)).toList)
        fun held member => ih held member (exact held member) (level + 1)
      simpa [prettyAt, toList_prettyItems] using whole
  | object members ih =>
    rw [isExact_object] at exact
    cases members with
    | nil =>
      have written : (prettyAt level (.object [])).toList = ['\x7b', '\x7d'] := by
        rw [prettyAt]
        decide
      rw [written]
      exact .object (.noMember areBlank_nil)
    | cons member rest =>
      have space : AreBlank [' '] := by
        intro character member
        rw [List.mem_singleton.1 member]
        decide
      have whole := Spells.objectOf (areBlank_lineStart (level + 1)) space
        (areBlank_lineStart level) (fun held => (held.prettyAt (level + 1)).toList)
        fun held within => ih held within (exact held within) (level + 1)
      simpa [prettyAt, toList_prettyMembers] using whole

end Json.Reader

/-! ## Documents -/

namespace Document

open Json.Reader

/-- A text that spells a value is read as the draft of that value. -/
theorem ofText_of_spells {value : Json} {text : String}
    (spelt : Spells (.value value) text.toList) :
    ofText text = { root := value.draft, isWhole := true } := by
  have read : readValue (2 * (Text.glyphs text).length + 2) (Text.glyphs text ++ []) =
      (value.draft, some []) :=
    spelt.isRead _ [] nofun (by simp [Text.glyphs])
  rw [List.append_nil] at read
  simp only [ofText, ofGlyphs, read]
  rfl

/-- **What is written without blanks is read as the draft of the value.** -/
theorem ofText_compact {value : Json} (exact : value.isExact = true) :
    ofText value.compact = { root := value.draft, isWhole := true } :=
  ofText_of_spells (spells_compact exact)

/-- **What is written in lines is read as the draft of the value.** -/
theorem ofText_pretty {value : Json} (exact : value.isExact = true) :
    ofText value.pretty = { root := value.draft, isWhole := true } :=
  ofText_of_spells (spells_prettyAt exact 0)

end Document

end ApiAtlas
