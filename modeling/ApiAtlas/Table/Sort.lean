import ApiAtlas.Table.Key

/-!
# Sorting by a key

A list is sorted by inserting its members one after the other, each before the
first that has a key as great as its own. Members with one key keep their order.
-/

set_option autoImplicit false

namespace ApiAtlas.Key

variable {α κ : Type} [Key κ]

/-- A member put before the first with a key as great as its own. -/
def insertBy (key : α → κ) (member : α) : List α → List α
  | [] => [member]
  | first :: rest =>
    if rank (key member) (key first) = .gt then first :: insertBy key member rest
    else member :: first :: rest

/-- The members in ascending order of their keys. -/
def sortBy (key : α → κ) (members : List α) : List α :=
  members.foldr (insertBy key) []

/-- The keys in ascending order. -/
def sort (keys : List κ) : List κ :=
  sortBy id keys

theorem insertBy_perm (key : α → κ) (member : α) (members : List α) :
    (insertBy key member members).Perm (member :: members) := by
  induction members with
  | nil => exact List.Perm.refl _
  | cons first rest ih =>
    simp only [insertBy]
    split
    · exact (ih.cons first).trans (List.Perm.swap member first rest)
    · exact List.Perm.refl _

/-- Sorting changes the order alone. -/
theorem sortBy_perm (key : α → κ) (members : List α) : (sortBy key members).Perm members := by
  induction members with
  | nil => exact List.Perm.refl _
  | cons first rest ih => exact (insertBy_perm key first _).trans (ih.cons first)

/-- A key that is not greater than a second is not greater than any that the second is not greater
than. -/
theorem rank_ne_gt_trans {first second third : κ} (forward : rank first second ≠ .gt)
    (onward : rank second third ≠ .gt) : rank first third ≠ .gt := by
  intro after
  rw [rank_gt_iff] at after
  cases ranked : rank first second with
  | lt => exact onward (rank_gt_iff.2 (rank_lt_trans after ranked))
  | eq => exact onward (rank_gt_iff.2 (eq_of_rank ranked ▸ after))
  | gt => exact forward ranked

/-- Of two keys in the wrong order the second is not greater than the first. -/
theorem rank_ne_gt_of_gt {first second : κ} (after : rank first second = .gt) :
    rank second first ≠ .gt := by
  rw [rank_gt_iff] at after
  rw [after]
  decide

theorem insertBy_ascending (key : α → κ) (member : α) {members : List α}
    (ascending : members.Pairwise fun first second => rank (key first) (key second) ≠ .gt) :
    (insertBy key member members).Pairwise fun first second =>
      rank (key first) (key second) ≠ .gt := by
  induction members with
  | nil => exact List.pairwise_singleton _ _
  | cons first rest ih =>
    have parts := List.pairwise_cons.1 ascending
    simp only [insertBy]
    split
    · next after =>
      refine List.pairwise_cons.2 ⟨fun other within => ?_, ih parts.2⟩
      rcases List.mem_cons.1 ((insertBy_perm key member rest).mem_iff.1 within) with same | further
      · rw [same]; exact rank_ne_gt_of_gt after
      · exact parts.1 other further
    · next before =>
      refine List.pairwise_cons.2 ⟨fun other within => ?_, ascending⟩
      rcases List.mem_cons.1 within with same | further
      · rw [same]; exact before
      · exact rank_ne_gt_trans before (parts.1 other further)

/-- A sorted list is in ascending order of its keys. -/
theorem sortBy_ascending (key : α → κ) (members : List α) :
    (sortBy key members).Pairwise fun first second => rank (key first) (key second) ≠ .gt := by
  induction members with
  | nil => exact List.Pairwise.nil
  | cons first rest ih => exact insertBy_ascending key first ih

end ApiAtlas.Key
