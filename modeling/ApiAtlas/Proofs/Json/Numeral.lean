import ApiAtlas.Json.Printer
import ApiAtlas.Json.Reader

/-!
# Whole numbers read back

A whole number is written as its decimal digits, behind a minus sign if it is
below zero. Read again these digits fit into 64 bits at every place, and nothing
behind them belongs to the numeral (`EndsNumeral`); so the number that is read
is the one that was written (`readScalar_numberText`).
-/

set_option autoImplicit false

namespace ApiAtlas.Json.Reader

open Text (Glyph)

/-! ## Digits -/

/-- The values of the decimal digits of a number. -/
def digitsOf (number : Nat) : List Nat :=
  (Nat.toDigits 10 number).map fun digit => digit.toNat - 48

/-- A decimal digit is read as its value. -/
theorem digit?_of_isDigit {character : Char} (isDigit : character.isDigit = true) :
    digit? (some character) = some (character.toNat - 48) := by
  simp only [Char.isDigit, Bool.and_eq_true, decide_eq_true_eq] at isDigit
  exact if_pos isDigit

theorem digitsOf_ne_nil (number : Nat) : digitsOf number ≠ [] := by
  rw [digitsOf, ne_eq, List.map_eq_nil_iff]
  exact Nat.toDigits_ne_nil

/-- Nothing at the start of a text continues a numeral. -/
def EndsNumeral (input : List Glyph) : Prop :=
  ∀ glyph ∈ input.head?, digit? glyph = none ∧ glyph ≠ some '.' ∧ glyph ≠ some 'e' ∧
    glyph ≠ some 'E'

/-- Digits are read up to the end of the numeral. -/
theorem spanDigits_append {digits : List Char} (areDigits : ∀ digit ∈ digits, digit.isDigit = true)
    {rest : List Glyph} (ends : EndsNumeral rest) :
    spanDigits (digits.map some ++ rest) = (digits.map fun digit => digit.toNat - 48, rest) := by
  induction digits with
  | nil =>
    cases rest with
    | nil => rfl
    | cons glyph others =>
      simp [spanDigits, (ends glyph rfl).1]
  | cons digit others ih =>
    have value := digit?_of_isDigit (areDigits digit (List.mem_cons_self ..))
    have further := ih fun other member => areDigits other (List.mem_cons_of_mem _ member)
    simp [spanDigits, value, further]

/-- The digits of a number make up the number. -/
theorem foldl_digitsOf (number : Nat) :
    (digitsOf number).foldl (fun sofar digit => sofar * 10 + digit) 0 = number := by
  calc (digitsOf number).foldl (fun sofar digit => sofar * 10 + digit) 0
      = Nat.ofDigitChars 10 (Nat.toDigits 10 number) 0 := by
        rw [digitsOf, List.foldl_map, Nat.ofDigitChars]
        refine congrArg (fun step => (Nat.toDigits 10 number).foldl step 0) ?_
        funext sofar digit
        rw [Nat.mul_comm]
        rfl
    _ = number := Nat.ofDigitChars_toDigits (by decide) (by decide)

/-- The only number that starts with the digit zero is zero. -/
theorem head?_digitsOf {number : Nat} (positive : 0 < number) :
    (digitsOf number).head? ≠ some 0 := by
  induction number using Nat.strongRecOn with
  | ind number ih =>
    rw [digitsOf, Nat.toDigits_eq_if (by decide)]
    split
    · next below =>
      have value : ∀ digit : Fin 10, (Nat.digitChar digit).toNat - 48 = digit.val := by decide
      have own : (Nat.digitChar number).toNat - 48 = number := value ⟨number, below⟩
      simp only [List.map_cons, List.map_nil, List.head?_cons, ne_eq, Option.some.injEq]
      omega
    · next above =>
      have shorter := ih (number / 10) (by omega) (by omega)
      have more : digitsOf (number / 10) ≠ [] := digitsOf_ne_nil _
      rw [List.map_append, List.head?_append]
      cases front : digitsOf (number / 10) with
      | nil => exact absurd front more
      | cons digit others =>
        rw [digitsOf] at front
        rw [digitsOf, front] at shorter
        rw [front]
        exact shorter

/-- Digits that fit into 64 bits make up a word, and none is left out. -/
theorem wholeWord_eq {digits : List Nat} {word : Nat}
    (fits : digits.foldl (fun sofar digit => sofar * 10 + digit) word < 18446744073709551616) :
    wholeWord word digits = (digits.foldl (fun sofar digit => sofar * 10 + digit) word, 0) := by
  induction digits generalizing word with
  | nil => rfl
  | cons digit rest ih =>
    have grows : ∀ (others : List Nat) (start : Nat),
        start ≤ others.foldl (fun sofar digit => sofar * 10 + digit) start := by
      intro others
      induction others with
      | nil => exact fun start => Nat.le_refl start
      | cons other further step =>
        intro start
        have next := step (start * 10 + other)
        simp only [List.foldl_cons]
        omega
    rw [List.foldl_cons] at fits
    have longer : word * 10 + digit < 18446744073709551616 :=
      Nat.lt_of_le_of_lt (grows rest _) fits
    rw [wholeWord, appendDigit?, if_pos longer]
    exact ih fits

/-! ## Numerals -/

/-- The parts of the numeral of a whole number. -/
def partsOf (negative : Bool) (number : Nat) : NumeralParts :=
  { negative, whole := digitsOf number, fraction := [], exponent := none }

/-- Where a numeral ends there is no exponent. -/
theorem readExponent_eq {rest : List Glyph} (ends : EndsNumeral rest) :
    readExponent rest = .ok (none, rest) := by
  rw [readExponent]
  · rintro others rfl
    exact absurd rfl (ends _ rfl).2.2.1
  · rintro others rfl
    exact absurd rfl (ends _ rfl).2.2.2

/-- The digits of a number are read as its numeral. -/
theorem readNumeral_digits (negative : Bool) (number : Nat) {rest : List Glyph}
    (ends : EndsNumeral rest) :
    readNumeral negative ((Nat.toDigits 10 number).map some ++ rest) =
      .ok (partsOf negative number, rest) := by
  have spanned : spanDigits ((Nat.toDigits 10 number).map some ++ rest) =
      (digitsOf number, rest) :=
    spanDigits_append (fun _ => Nat.isDigit_of_mem_toDigits (by decide) (by decide)) ends
  have due : dueDigits ((Nat.toDigits 10 number).map some ++ rest) =
      .ok (digitsOf number, rest) := by
    rw [dueDigits, spanned]
    cases digits : digitsOf number with
    | nil => exact absurd digits (digitsOf_ne_nil number)
    | cons digit others => rfl
  have canonical : ¬((digitsOf number).head? = some 0 ∧ (digitsOf number).length > 1) := by
    rintro ⟨zero, longer⟩
    cases number with
    | zero => exact absurd longer (by decide)
    | succ before => exact head?_digitsOf (Nat.succ_pos before) zero
  simp only [readNumeral, due, bind, Except.bind, canonical, if_false]
  split
  · exact absurd rfl (ends _ rfl).2.1
  · rw [readExponent_eq ends]
    rfl

/-- The numeral of a whole number that fits into 64 bits has that number as its value. -/
theorem numberValue_partsOf (count : WholeNumber) :
    numberValue (partsOf (count.value < 0) count.value.natAbs) = some (.whole count) := by
  have inRange := count.inRange
  have word : wholeWord 0 (digitsOf count.value.natAbs) = (count.value.natAbs, 0) := by
    have made := foldl_digitsOf count.value.natAbs
    have fits : count.value.natAbs < 18446744073709551616 := by omega
    rw [wholeWord_eq (by rw [made]; exact fits), made]
  have value : (if decide (count.value < 0) = true then -(count.value.natAbs : Int)
      else count.value.natAbs) = count.value := by
    simp only [decide_eq_true_eq]
    split <;> omega
  have whole : wholeNumber? (count.value < 0) count.value.natAbs = some count := by
    have noNegativeZero : ¬(decide (count.value < 0) = true ∧ count.value.natAbs = 0) := by
      simp only [decide_eq_true_eq]
      omega
    rw [wholeNumber?, if_neg noNegativeZero]
    simp only [value, inRange, and_self, dite_true]
  simp only [numberValue, partsOf, word, fractionWord, and_self, if_true, whole]

/-- A glyph that is a digit starts a number. -/
theorem readScalar_digit {character : Char} (isDigit : character.isDigit = true)
    (rest : List Glyph) :
    readScalar (some character :: rest) = readNumber false (some character :: rest) := by
  have value := digit?_of_isDigit isDigit
  rw [readScalar]
  · rw [value]
  all_goals
    intro same
    cases same
    exact absurd isDigit (by decide)

/-- A whole number is written as its digits, behind a minus sign if it is below zero. -/
theorem toList_toString (value : Int) :
    (toString value).toList =
      if value < 0 then '-' :: Nat.toDigits 10 value.natAbs
      else Nat.toDigits 10 value.natAbs := by
  cases value with
  | ofNat number =>
    have nonnegative : ¬Int.ofNat number < 0 := Int.not_lt.2 (Int.natCast_nonneg number)
    rw [if_neg nonnegative]
    exact Nat.toList_repr
  | negSucc number =>
    rw [if_pos (Int.negSucc_lt_zero number)]
    have written : toString (Int.negSucc number) = "-" ++ (number + 1).repr := rfl
    rw [written, String.toList_append, Nat.toList_repr]
    rfl

/-- **A whole number that has been written is read as itself**, and what stands behind it is
left. -/
theorem readScalar_numberText (count : WholeNumber) {rest : List Glyph}
    (ends : EndsNumeral rest) :
    readScalar ((numberText (.whole count)).toList.map some ++ rest) =
      (.number (.whole count), some rest) := by
  have read : readNumber (count.value < 0)
      ((Nat.toDigits 10 count.value.natAbs).map some ++ rest) =
        (.number (.whole count), some rest) := by
    rw [readNumber, readNumeral_digits _ _ ends]
    simp only [numberValue_partsOf]
  rw [numberText, toList_toString]
  by_cases negative : count.value < 0
  · rw [if_pos negative, ← read, decide_eq_true negative]
    rfl
  · rw [if_neg negative, ← read, decide_eq_false negative]
    cases digits : Nat.toDigits 10 count.value.natAbs with
    | nil => exact absurd digits Nat.toDigits_ne_nil
    | cons digit others =>
      have isDigit : digit.isDigit = true :=
        Nat.isDigit_of_mem_toDigits (by decide) (by decide) (digits ▸ List.mem_cons_self ..)
      exact readScalar_digit isDigit _

end ApiAtlas.Json.Reader
