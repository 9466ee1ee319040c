/-!
# Keys in one order

A table is kept sorted by its keys, so every type of keys comes with one total
order: a comparison that answers `eq` for equal keys only (`rank_eq_iff`),
turns round when its arguments are exchanged (`rank_swap`) and is transitive
(`rank_lt_trans`).

Text is ordered by code points, options put the missing value first, and pairs
and lists are ordered by their first difference. A record is ordered like the
tuple of its fields: any function that tells all values apart carries the order
of its results over to them (`Key.along`).
-/

set_option autoImplicit false

namespace ApiAtlas

/-- A type whose values stand in one total order, given by a comparison. -/
class Key (κ : Type) where
  /-- How the first key stands to the second. -/
  rank : κ → κ → Ordering
  /-- Only equal keys share a rank. -/
  rank_eq_iff : ∀ first second : κ, rank first second = .eq ↔ first = second
  /-- Exchanging the arguments turns the comparison round. -/
  rank_swap : ∀ first second : κ, rank second first = (rank first second).swap
  /-- The order is transitive. -/
  rank_lt_trans : ∀ {first second third : κ},
    rank first second = .lt → rank second third = .lt → rank first third = .lt

namespace Key

section Laws

variable {κ : Type} [Key κ]

/-- A key has the same rank as itself. -/
@[simp]
theorem rank_self (key : κ) : rank key key = .eq :=
  (rank_eq_iff key key).2 rfl

/-- Keys of equal rank are equal. -/
theorem eq_of_rank {first second : κ} (same : rank first second = .eq) : first = second :=
  (rank_eq_iff first second).1 same

/-- A later key is greater. -/
theorem rank_gt_iff {first second : κ} : rank first second = .gt ↔ rank second first = .lt := by
  rw [rank_swap first second]
  cases rank first second <;> simp

/-- No key comes before itself. -/
theorem rank_ne_lt_self (key : κ) : rank key key ≠ .lt := by
  simp

/-- Two keys do not each come before the other. -/
theorem rank_ne_lt_of_lt {first second : κ} (before : rank first second = .lt) :
    rank second first ≠ .lt := by
  rw [rank_swap first second, before]
  decide

/-- Keys whose comparison is not `eq` differ. -/
theorem ne_of_rank_lt {first second : κ} (before : rank first second = .lt) : first ≠ second := by
  rintro rfl
  exact rank_ne_lt_self first before

end Laws

/-! ## Orders of the basic types -/

/-- The comparison by a strict order that decides between any two values. -/
def rankBy {κ : Type} [DecidableEq κ] (precedes : κ → κ → Bool) (first second : κ) : Ordering :=
  if first = second then .eq else if precedes first second then .lt else .gt

theorem rankBy_eq_lt_iff {κ : Type} [DecidableEq κ] {precedes : κ → κ → Bool} {first second : κ} :
    rankBy precedes first second = .lt ↔ first ≠ second ∧ precedes first second = true := by
  unfold rankBy
  by_cases same : first = second
  · simp [same]
  · cases decided : precedes first second <;> simp [same]

/-- A strict total order on a type makes it a type of keys. -/
@[reducible]
def ofPrecedes {κ : Type} [DecidableEq κ] (precedes : κ → κ → Bool)
    (irreflexive : ∀ key, precedes key key = false)
    (asymmetric : ∀ first second, precedes first second = true → precedes second first = false)
    (total : ∀ first second, precedes first second = false → precedes second first = false →
      first = second)
    (transitive : ∀ {first second third},
      precedes first second = true → precedes second third = true →
        precedes first third = true) : Key κ where
  rank := rankBy precedes
  rank_eq_iff first second := by
    unfold rankBy
    split
    · simp_all
    · split <;> simp_all
  rank_swap first second := by
    unfold rankBy
    by_cases same : first = second
    · simp [same]
    · have other : second ≠ first := fun equal => same equal.symm
      cases forward : precedes first second with
      | true => simp [same, other, asymmetric first second forward]
      | false =>
        cases backward : precedes second first with
        | true => simp [same, other]
        | false => exact absurd (total first second forward backward) same
  rank_lt_trans := by
    intro first second third forward onward
    have jump := transitive (rankBy_eq_lt_iff.1 forward).2 (rankBy_eq_lt_iff.1 onward).2
    have apart : first ≠ third := by
      rintro rfl
      rw [irreflexive first] at jump
      exact absurd jump (by decide)
    exact rankBy_eq_lt_iff.2 ⟨apart, jump⟩

/-- Natural numbers in their usual order. -/
instance instNat : Key Nat :=
  ofPrecedes (fun first second => decide (first < second))
    (fun key => decide_eq_false (Nat.lt_irrefl key))
    (fun _ _ before => decide_eq_false (Nat.lt_asymm (of_decide_eq_true before)))
    (fun _ _ upper lower => Nat.le_antisymm (Nat.not_lt.1 (of_decide_eq_false lower))
      (Nat.not_lt.1 (of_decide_eq_false upper)))
    (fun forward onward =>
      decide_eq_true (Nat.lt_trans (of_decide_eq_true forward) (of_decide_eq_true onward)))

/-- Truth values with `false` first. -/
instance instBool : Key Bool :=
  ofPrecedes (fun first second => !first && second) (by decide) (by decide) (by decide)
    (by decide)

/-- Text in the order of its code points, an initial part before the whole. -/
instance instString : Key String :=
  ofPrecedes (fun first second => decide (first < second))
    (fun key => decide_eq_false (String.lt_irrefl key))
    (fun _ _ before => decide_eq_false (String.lt_asymm (of_decide_eq_true before)))
    (fun _ _ upper lower => String.le_antisymm (of_decide_eq_false lower)
      (of_decide_eq_false upper))
    (fun forward onward =>
      decide_eq_true (String.lt_trans (of_decide_eq_true forward) (of_decide_eq_true onward)))

/-- Of two truth values only `false` comes before `true`. -/
theorem rank_bool_lt_iff {first second : Bool} :
    rank first second = .lt ↔ first = false ∧ second = true := by
  cases first <;> cases second <;> decide

/-- The rank of texts is their order. -/
theorem rank_text_lt_iff {first second : String} : rank first second = .lt ↔ first < second := by
  refine rankBy_eq_lt_iff.trans ?_
  rw [decide_eq_true_iff]
  refine and_iff_right_of_imp fun before => ?_
  rintro rfl
  exact String.lt_irrefl first before

/-! ## Orders carried over -/

/-- A function that tells all values apart carries the order of its results over to them. -/
@[reducible]
def along {α κ : Type} [Key κ] (key : α → κ)
    (injective : ∀ first second, key first = key second → first = second) : Key α where
  rank first second := rank (key first) (key second)
  rank_eq_iff first second :=
    (rank_eq_iff (key first) (key second)).trans ⟨injective first second, congrArg key⟩
  rank_swap first second := rank_swap (key first) (key second)
  rank_lt_trans := rank_lt_trans

section Pairs

variable {κ μ : Type} [Key κ] [Key μ]

/-- The comparison of pairs by their first difference. -/
def rankPair (first second : κ × μ) : Ordering :=
  (rank first.1 second.1).then (rank first.2 second.2)

/-- A pair comes before another exactly if its first difference does. -/
theorem rankPair_lt_iff (first second : κ × μ) :
    rankPair first second = .lt ↔
      rank first.1 second.1 = .lt ∨ first.1 = second.1 ∧ rank first.2 second.2 = .lt := by
  unfold rankPair
  have equal := rank_eq_iff first.1 second.1
  cases ranked : rank first.1 second.1 <;> simp_all [Ordering.then]

/-- Pairs are ordered by their first difference. -/
instance instProd : Key (κ × μ) where
  rank := rankPair
  rank_eq_iff first second := by
    unfold rankPair
    have left := rank_eq_iff first.1 second.1
    have right := rank_eq_iff first.2 second.2
    rw [Prod.ext_iff, ← left, ← right]
    cases rank first.1 second.1 <;> simp [Ordering.then]
  rank_swap first second := by
    unfold rankPair
    rw [rank_swap first.1 second.1, rank_swap first.2 second.2]
    cases rank first.1 second.1 <;> rfl
  rank_lt_trans {first second third} forward onward := by
    rw [rankPair_lt_iff] at forward onward ⊢
    rcases forward with before | ⟨same, before⟩ <;> rcases onward with after | ⟨alike, after⟩
    · exact .inl (rank_lt_trans before after)
    · exact .inl (alike ▸ before)
    · exact .inl (same ▸ after)
    · exact .inr ⟨same.trans alike, rank_lt_trans before after⟩

/-- Of three parts the first difference decides. -/
theorem rank_triple_lt_iff {ν : Type} [Key ν] (first second : κ × μ × ν) :
    rank first second = .lt ↔
      rank first.1 second.1 = .lt ∨
        first.1 = second.1 ∧
          (rank first.2.1 second.2.1 = .lt ∨
            first.2.1 = second.2.1 ∧ rank first.2.2 second.2.2 = .lt) := by
  refine (rankPair_lt_iff first second).trans (or_congr_right (and_congr_right fun _ => ?_))
  exact rankPair_lt_iff first.2 second.2

end Pairs

section Options

variable {κ : Type} [Key κ]

/-- The comparison of options: the missing value comes first. -/
def rankOption : Option κ → Option κ → Ordering
  | none, none => .eq
  | none, some _ => .lt
  | some _, none => .gt
  | some first, some second => rank first second

/-- Options are ordered with the missing value first. -/
instance instOption : Key (Option κ) where
  rank := rankOption
  rank_eq_iff first second := by
    cases first <;> cases second <;> simp [rankOption, rank_eq_iff]
  rank_swap
    | none, none => rfl
    | none, some _ => rfl
    | some _, none => rfl
    | some first, some second => rank_swap first second
  rank_lt_trans {first second third} forward onward := by
    cases first <;> cases second <;> cases third <;>
      simp_all only [rankOption, reduceCtorEq]
    exact rank_lt_trans forward onward

end Options

section Lists

variable {κ : Type} [Key κ]

/-- The comparison of lists by their first difference, an initial part before the whole. -/
def rankList : List κ → List κ → Ordering
  | [], [] => .eq
  | [], _ :: _ => .lt
  | _ :: _, [] => .gt
  | first :: firsts, second :: seconds => (rank first second).then (rankList firsts seconds)

theorem rankList_eq_iff (first second : List κ) : rankList first second = .eq ↔ first = second := by
  induction first generalizing second with
  | nil => cases second <;> simp [rankList]
  | cons head tail ih =>
    cases second with
    | nil => simp [rankList]
    | cons other others =>
      have left := rank_eq_iff head other
      have right := ih others
      rw [List.cons.injEq, ← left, ← right]
      simp only [rankList]
      cases rank head other <;> simp [Ordering.then]

theorem rankList_swap (first second : List κ) :
    rankList second first = (rankList first second).swap := by
  induction first generalizing second with
  | nil => cases second <;> rfl
  | cons head tail ih =>
    cases second with
    | nil => rfl
    | cons other others =>
      simp only [rankList]
      rw [rank_swap head other, ih others]
      cases rank head other <;> rfl

theorem rankList_lt_trans {first second third : List κ} :
    rankList first second = .lt → rankList second third = .lt → rankList first third = .lt := by
  induction first generalizing second third with
  | nil => cases second <;> cases third <;> simp [rankList]
  | cons head tail ih =>
    cases second with
    | nil => simp [rankList]
    | cons other others =>
      cases third with
      | nil => simp [rankList]
      | cons last lasts =>
        intro forward onward
        simp only [rankList, Ordering.then_eq_lt] at forward onward ⊢
        rcases forward with before | ⟨same, before⟩ <;> rcases onward with after | ⟨alike, after⟩
        · exact .inl (rank_lt_trans before after)
        · exact .inl (eq_of_rank alike ▸ before)
        · exact .inl (eq_of_rank same ▸ after)
        · exact .inr ⟨by rw [eq_of_rank same]; exact alike, ih before after⟩

/-- Lists are ordered by their first difference, an initial part before the whole. -/
instance instList : Key (List κ) where
  rank := rankList
  rank_eq_iff := rankList_eq_iff
  rank_swap := rankList_swap
  rank_lt_trans := rankList_lt_trans

/-- The rank of lists of texts is their lexicographic order. -/
theorem rank_texts_lt_iff {first second : List String} :
    rank first second = .lt ↔ first < second := by
  show rankList first second = .lt ↔ first < second
  induction first generalizing second with
  | nil => cases second <;> simp [rankList]
  | cons head tail ih =>
    cases second with
    | nil => simp [rankList]
    | cons other others =>
      rw [rankList, Ordering.then_eq_lt, ih, rank_text_lt_iff, rank_eq_iff, List.cons_lt_cons_iff]

end Lists

end Key

end ApiAtlas
