import ApiAtlas.Proofs.Session.Precedence
import ApiAtlas.Proofs.Slots.Symbol
import ApiAtlas.Proofs.Unified.Variants

/-!
# Comments shared by views

Views with the same comment are listed in one group. The groups are made by going
through the comments of the views: a view joins the group with its comment, and
starts a new one otherwise (`AreCommentGroups.join`). So each view with a comment is
listed exactly once, and two views share a group exactly if they have the same
comment (`sharesGroup_iff`).

Comments are the same if they are equal as a whole, with the places of their lines,
their address and their module. The text of a comment knows nothing of these. Views
with the same text are sure to share a group exactly if the text tells the comments
of the symbol apart (`sharesByText_iff`). It does if the comments are plain and of
unbroken lines (`sharesByText_of_plain`). A comment that has been read from two
source files has one text, but two groups (`commentGroups_read_twice`).
-/

set_option autoImplicit false

namespace ApiAtlas

/-! ## Making groups -/

/-- Two views are listed in one group. -/
def SharesGroup (groups : List (DocComment × List View)) (first second : View) : Prop :=
  ∃ group ∈ groups, first ∈ group.2 ∧ second ∈ group.2

/-- The groups are those of the comments that have been seen: one for each of the different
comments, with the views that have it. -/
structure AreCommentGroups (seen : List (View × DocComment))
    (groups : List (DocComment × List View)) : Prop where
  /-- No comment has two groups. -/
  apart : groups.Pairwise fun first second => first.1 ≠ second.1
  /-- A group lists the views with its comment in the order in which they were seen. -/
  views : ∀ group ∈ groups, group.2 = (seen.filter fun entry => entry.2 = group.1).map (·.1)
  /-- Every comment has a group. -/
  complete : ∀ entry ∈ seen, ∃ group ∈ groups, group.1 = entry.2

namespace UnifiedSymbol

/-- A view joins the first group with its comment. -/
theorem joinCommentGroup_eq (view : View) (comment : DocComment)
    (groups : List (DocComment × List View)) :
    joinCommentGroup view comment groups =
      joinFirst (·.1 = comment) (fun group => (group.1, group.2 ++ [view])) (comment, [view])
        groups := by
  induction groups with
  | nil => rfl
  | cons group rest ih => simp only [joinCommentGroup, joinFirst, ih, decide_eq_true_eq]

/-- A view that joins the groups is listed once more, and no other view is. -/
theorem flatMap_joinCommentGroup (view : View) (comment : DocComment)
    (groups : List (DocComment × List View)) :
    ((joinCommentGroup view comment groups).flatMap (·.2)).Perm
      (groups.flatMap (·.2) ++ [view]) := by
  induction groups with
  | nil => simp [joinCommentGroup]
  | cons group rest ih =>
    rw [joinCommentGroup]
    split
    · simp only [List.flatMap_cons, List.append_assoc]
      exact List.perm_append_comm.append_left _
    · simp only [List.flatMap_cons, List.append_assoc]
      exact ih.append_left _

end UnifiedSymbol

namespace AreCommentGroups

open UnifiedSymbol

variable {seen : List (View × DocComment)} {groups : List (DocComment × List View)}

theorem nil : AreCommentGroups [] [] where
  apart := List.Pairwise.nil
  views _ member := by cases member
  complete _ member := by cases member

/-- **One more comment joins the groups.** -/
theorem join (are : AreCommentGroups seen groups) (view : View) (comment : DocComment) :
    AreCommentGroups (seen ++ [(view, comment)]) (joinCommentGroup view comment groups) := by
  rw [joinCommentGroup_eq]
  by_cases known : ∃ group ∈ groups, group.1 = comment
  · -- groups of one comment would not be apart, so exactly one group takes the view in
    have alone : groups.Pairwise fun first second =>
        decide (first.1 = comment) = true → decide (second.1 = comment) = false := by
      refine are.apart.imp fun {first second} differ one => ?_
      rw [← of_decide_eq_true one]
      exact decide_eq_false differ.symm
    have some : ∃ group ∈ groups, decide (group.1 = comment) = true := by simpa using known
    rw [joinFirst_of_alone _ _ alone some]
    have heads : ∀ group : DocComment × List View,
        (if decide (group.1 = comment) = true then (group.1, group.2 ++ [view]) else group).1 =
          group.1 := by
      intro group
      split <;> rfl
    constructor
    · exact List.pairwise_map.2 (are.apart.imp fun {first second} differ => by simpa only [heads])
    · intro joined member
      obtain ⟨group, within, rfl⟩ := List.mem_map.1 member
      rw [heads, List.filter_append, List.map_append, ← are.views group within]
      by_cases same : group.1 = comment
      · simp [same]
      · simp [same, Ne.symm same]
    · intro entry member
      simp only [List.mem_map, exists_exists_and_eq_and, heads]
      rcases List.mem_append.1 member with was | new
      · exact are.complete entry was
      · rw [List.mem_singleton.1 new]
        exact known
  · have fresh : ∀ group ∈ groups, decide (group.1 = comment) = false :=
      fun group member => decide_eq_false fun same => known ⟨group, member, same⟩
    rw [joinFirst_of_none _ _ fresh]
    constructor
    · refine List.pairwise_append.2 ⟨are.apart, List.pairwise_singleton _ _, ?_⟩
      intro group member last own
      rw [List.mem_singleton.1 own]
      exact of_decide_eq_false (fresh group member)
    · intro group member
      rw [List.filter_append, List.map_append]
      rcases List.mem_append.1 member with old | new
      · rw [← are.views group old]
        have differs : comment ≠ group.1 := Ne.symm (of_decide_eq_false (fresh group old))
        simp [differs]
      · have unseen : ∀ entry ∈ seen, entry.2 ≠ comment := by
          intro entry was same
          obtain ⟨group, within, head⟩ := are.complete entry was
          exact known ⟨group, within, head.trans same⟩
        obtain rfl := List.mem_singleton.1 new
        rw [List.filter_eq_nil_iff.2 (by simpa using unseen)]
        simp
    · intro entry member
      rcases List.mem_append.1 member with was | new
      · obtain ⟨group, within, head⟩ := are.complete entry was
        exact ⟨group, List.mem_append_left _ within, head⟩
      · rw [List.mem_singleton.1 new]
        exact ⟨_, List.mem_append_right _ (List.mem_singleton_self _), rfl⟩

/-- One comment after the other joins the groups. -/
theorem foldl_join (are : AreCommentGroups seen groups) (entries : List (View × DocComment)) :
    AreCommentGroups (seen ++ entries)
      (entries.foldl (fun sofar entry => joinCommentGroup entry.1 entry.2 sofar) groups) := by
  induction entries generalizing seen groups with
  | nil => rwa [List.append_nil]
  | cons entry rest ih =>
    rw [List.append_cons]
    exact ih (are.join entry.1 entry.2)

/-- Two views share a group if they have been seen with the same comment. -/
theorem sharesGroup_iff (are : AreCommentGroups seen groups) {first second : View} :
    SharesGroup groups first second ↔
      ∃ comment, (first, comment) ∈ seen ∧ (second, comment) ∈ seen := by
  have listed : ∀ group ∈ groups, ∀ view, view ∈ group.2 ↔ (view, group.1) ∈ seen := by
    intro group member view
    rw [are.views group member]
    simp [List.mem_map, List.mem_filter]
  constructor
  · rintro ⟨group, member, one, other⟩
    exact ⟨group.1, (listed group member first).1 one, (listed group member second).1 other⟩
  · rintro ⟨comment, one, other⟩
    obtain ⟨group, member, rfl⟩ := are.complete _ one
    exact ⟨group, member, (listed group member first).2 one, (listed group member second).2 other⟩

end AreCommentGroups

/-! ## The groups of a symbol -/

namespace UnifiedSymbol

variable (symbol : UnifiedSymbol)

/-- The comment of a view. -/
def comment? (view : View) : Option DocComment :=
  (symbol.facet? view).bind (·.comment)

theorem get?_comments_slots (view : View) :
    symbol.slots.comments.get? view = symbol.comment? view :=
  symbol.get?_column _ view

/-- The groups are made from the table of comments. -/
theorem commentGroups_eq :
    symbol.commentGroups = symbol.slots.comments.entries.foldl
      (fun sofar entry => joinCommentGroup entry.1 entry.2 sofar) [] := by
  have entries : symbol.slots.comments.entries =
      symbol.facets.entries.filterMap (Table.mapEntry fun _ facet => facet.comment) := rfl
  rw [commentGroups, entries, List.foldl_filterMap]
  refine congrArg (fun step => List.foldl step [] symbol.facets.entries) ?_
  funext groups entry
  cases commented : entry.2.comment <;> simp [Table.mapEntry, commented]

theorem areCommentGroups_commentGroups :
    AreCommentGroups symbol.slots.comments.entries symbol.commentGroups := by
  rw [commentGroups_eq]
  exact AreCommentGroups.nil.foldl_join symbol.slots.comments.entries

/-- The groups list the views with a comment. -/
theorem flatMap_commentGroups :
    (symbol.commentGroups.flatMap (·.2)).Perm symbol.slots.comments.keys := by
  have run : ∀ (entries : List (View × DocComment)) (groups : List (DocComment × List View)),
      ((entries.foldl (fun sofar entry => joinCommentGroup entry.1 entry.2 sofar) groups).flatMap
        (·.2)).Perm (groups.flatMap (·.2) ++ entries.map (·.1)) := by
    intro entries
    induction entries with
    | nil => simp
    | cons entry rest ih =>
      intro groups
      refine (ih _).trans ?_
      rw [List.map_cons, List.append_cons]
      exact (flatMap_joinCommentGroup entry.1 entry.2 groups).append_right _
  rw [commentGroups_eq]
  exact run symbol.slots.comments.entries []

/-- **Each view with a comment is listed exactly once**, and no other view is. -/
theorem count_commentGroups (view : View) :
    (symbol.commentGroups.flatMap (·.2)).count view =
      if (symbol.comment? view).isSome then 1 else 0 := by
  rw [symbol.flatMap_commentGroups.count_eq, ← get?_comments_slots, ← Table.contains]
  split
  · next there =>
    exact List.count_eq_one_of_mem (Table.nodup_keys _) (Table.mem_keys.2 there)
  · next absent =>
    exact List.count_eq_zero.2 fun member => absent (Table.mem_keys.1 member)

/-- **Two views share a group exactly if they have the same comment.** -/
theorem sharesGroup_commentGroups_iff {first second : View} :
    SharesGroup symbol.commentGroups first second ↔
      ∃ comment, symbol.comment? first = some comment ∧ symbol.comment? second = some comment := by
  rw [symbol.areCommentGroups_commentGroups.sharesGroup_iff]
  simp only [← Table.get?_eq_some_iff, get?_comments_slots]

/-! ## Comments with the same text -/

/-- Views with comments share a group exactly if the texts of their comments are the same. -/
def SharesByText : Prop :=
  ∀ (first second : View) (one other : DocComment),
    symbol.comment? first = some one → symbol.comment? second = some other →
      (SharesGroup symbol.commentGroups first second ↔ one.text = other.text)

/-- Comments of the symbol with the same text are the same. -/
def IsToldByText : Prop :=
  ∀ (first second : View) (one other : DocComment),
    symbol.comment? first = some one → symbol.comment? second = some other →
      one.text = other.text → one = other

/-- Views share a group by the text of their comments exactly if the text tells these apart. -/
theorem sharesByText_iff_isToldByText : symbol.SharesByText ↔ symbol.IsToldByText := by
  have shares : ∀ {first second : View} {one other : DocComment},
      symbol.comment? first = some one → symbol.comment? second = some other →
        (SharesGroup symbol.commentGroups first second ↔ one = other) := by
    intro first second one other ofFirst ofSecond
    rw [sharesGroup_commentGroups_iff, ofFirst, ofSecond]
    simp [eq_comm]
  refine forall₄_congr fun first second one other => forall₂_congr fun ofFirst ofSecond => ?_
  rw [shares ofFirst ofSecond]
  constructor
  · exact fun same => same.2
  · exact fun told => ⟨congrArg DocComment.text, told⟩

/-- **The groups list each view with a comment exactly once, and put views together whose comments
are the same as a whole.** So views share a group by the text of their comments exactly if no two
comments of the symbol differ in nothing that their text shows. -/
theorem sharesByText_iff :
    (∀ view, (symbol.commentGroups.flatMap (·.2)).count view =
        if (symbol.comment? view).isSome then 1 else 0) ∧
      (∀ first second, SharesGroup symbol.commentGroups first second ↔
        ∃ comment, symbol.comment? first = some comment ∧
          symbol.comment? second = some comment) ∧
      (symbol.SharesByText ↔ symbol.IsToldByText) :=
  ⟨symbol.count_commentGroups, fun _ _ => symbol.sharesGroup_commentGroups_iff,
    symbol.sharesByText_iff_isToldByText⟩

end UnifiedSymbol

/-! ## Plain comments -/

namespace DocComment

/-- A comment tells nothing but its lines, of which there are some, and none is broken. -/
structure IsPlain (comment : DocComment) : Prop where
  url : comment.url = none
  module : comment.module = none
  ranges : ∀ line ∈ comment.lines, line.range = none
  unbroken : ∀ line ∈ comment.lines, '\n' ∉ line.text.toList
  nonempty : comment.lines ≠ []

variable {first second : DocComment}

/-- The lines of a plain comment can be had back from its text. -/
theorem IsPlain.splitOn_text (plain : first.IsPlain) :
    first.text.toList.splitOn '\n' = first.lines.map (·.text.toList) := by
  rw [text, String.toList_intercalate, List.map_map]
  refine List.splitOn_intercalate '\n' ?_ (by simpa using plain.nonempty)
  intro line member
  obtain ⟨own, within, rfl⟩ := List.mem_map.1 member
  exact plain.unbroken own within

/-- Plain comments with the same text are the same. -/
theorem IsPlain.eq_of_text_eq (one : first.IsPlain) (other : second.IsPlain)
    (same : first.text = second.text) : first = second := by
  have texts : first.lines.map (·.text.toList) = second.lines.map (·.text.toList) := by
    rw [← one.splitOn_text, ← other.splitOn_text, same]
  have lines : first.lines = second.lines := by
    have bare : ∀ {comment : DocComment}, comment.IsPlain →
        comment.lines = (comment.lines.map (·.text.toList)).map fun characters =>
          { text := String.ofList characters } := by
      intro comment plain
      rw [List.map_map]
      refine (List.map_id _).symm.trans (List.map_congr_left fun line member => ?_)
      have without := plain.ranges line member
      cases line
      simp_all
    rw [bare one, bare other, texts]
  cases first
  cases second
  obtain rfl := one.url
  obtain rfl := other.url
  obtain rfl := one.module
  obtain rfl := other.module
  obtain rfl := lines
  rfl

end DocComment

namespace UnifiedSymbol

/-- **Views share plain comments by their text.** -/
theorem sharesByText_of_plain (symbol : UnifiedSymbol)
    (plain : ∀ view comment, symbol.comment? view = some comment → comment.IsPlain) :
    symbol.SharesByText := by
  refine symbol.sharesByText_iff_isToldByText.2 ?_
  intro first second one other ofFirst ofSecond
  exact (plain first one ofFirst).eq_of_text_eq (plain second other ofSecond)

/-! ## Comments read twice -/

/-- A class with a comment of one line at a place in a source file. -/
def widgetReadAt (line : UInt32) : Symbol :=
  let place : SourceRange := { start := ⟨line, 4⟩, stop := ⟨line, 10⟩ }
  { widget [] with comment := some { lines := [{ text := "Draws.", range := some place }] } }

/-- The class on two platforms, whose source files have the comment in different lines. -/
def widgetReadTwice : UnifiedSymbol :=
  (ofSymbol (widgetReadAt 3) ⟨"swift", some "iOS"⟩ kit true).record ⟨"swift", some "macOS"⟩
    (Facet.ofSymbol (widgetReadAt 7) kit true)

/-- The comments of the class have one text, but its views do not share a group. -/
theorem commentGroups_read_twice :
    (ofSymbol (widgetReadAt 3) ⟨"swift", some "iOS"⟩ kit true).merge (widgetReadAt 7)
        ⟨"swift", some "macOS"⟩ kit true = .ok widgetReadTwice ∧
      widgetReadTwice.commentGroups.map (fun group => (group.1.text, group.2)) =
        [("Draws.", [⟨"swift", some "iOS"⟩]), ("Draws.", [⟨"swift", some "macOS"⟩])] ∧
      ¬widgetReadTwice.SharesByText := by
  have merged : (ofSymbol (widgetReadAt 3) ⟨"swift", some "iOS"⟩ kit true).merge
      (widgetReadAt 7) ⟨"swift", some "macOS"⟩ kit true = .ok widgetReadTwice := by
    decide +kernel
  refine ⟨merged, by decide +kernel, fun shares => ?_⟩
  have told := widgetReadTwice.sharesByText_iff_isToldByText.1 shares ⟨"swift", some "iOS"⟩
    ⟨"swift", some "macOS"⟩ _ _ (show _ = (widgetReadAt 3).comment by decide +kernel)
    (show _ = (widgetReadAt 7).comment by decide +kernel) rfl
  revert told
  decide +kernel

end UnifiedSymbol

end ApiAtlas
