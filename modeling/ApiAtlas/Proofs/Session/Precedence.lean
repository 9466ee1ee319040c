import ApiAtlas.Proofs.Session.ArrivalOrder
import Mathlib.Data.List.Induction

/-!
# Precedence of main graphs

What a main graph says about a symbol in a view lies above what extensions say.
For a run of merges this means that each slot of a facet holds what the last
main record with that slot says, wherever the extensions stand in the run
(`facetAt_mergeAll_main`). One arrival after the other keeps it so
(`Facet.FollowsMain.step`).

The order between one main record and one extension matters only through what an
earlier extension left behind. If the main record is silent about something that
both extensions tell, the extension that comes after the main record no longer
replaces the earlier one, and before the main record it does. So the two orders
agree exactly if the earlier and the later extension do not contradict each
other where the main record is silent (`merge_main_extension_comm_iff`).
-/

set_option autoImplicit false

namespace ApiAtlas

/-! ## Facets over each other -/

namespace Facet

/-- What is looked up in the mixins of two facets is looked up in the upper one first. -/
theorem get?_mixins_above (upper lower : Facet) (key : String) :
    Table.get? (upper.above lower).mixins key =
      (Table.get? upper.mixins key).or (Table.get? lower.mixins key) := by
  exact Table.get?_union lower.mixins upper.mixins key

/-- A main facet comes to lie above whatever is there. -/
theorem receive_main (held : Facet) {arrived : Facet} (isMain : arrived.isMain = true) :
    held.receive arrived = arrived.above held := by
  simp [receive, isMain]

/-- What an extension says comes to lie below a main facet. -/
theorem receive_extension {held : Facet} (isMain : held.isMain = true) {arrived : Facet}
    (isExtension : arrived.isMain = false) : held.receive arrived = held.above arrived := by
  simp [receive, isMain, isExtension]

/-- Where no main graph has been seen, what arrives comes to lie above. -/
theorem receive_of_not_main {held : Facet} (notMain : held.isMain = false) (arrived : Facet) :
    held.receive arrived = arrived.above held := by
  simp [receive, notMain]

/-- Of three facets over each other it does not matter which two are put together first. -/
theorem above_assoc (upper middle lower : Facet) :
    (upper.above middle).above lower = upper.above (middle.above lower) := by
  simp [above, Option.or_assoc, Table.union_assoc, Bool.or_assoc]

end Facet

/-! ## Runs -/

/-- A record of a symbol with the module of its graph. -/
abbrev ModuleRecord : Type :=
  Symbol × Module

namespace SymbolGraph

/-- The record that the graph has, under its own identifier, in a view. -/
def recordAt? (graph : SymbolGraph) (identifier : String) (view : View) : Option ModuleRecord :=
  match graph.symbols.get? identifier with
  | some symbol =>
    if symbol.identifier = identifier ∧ View.ofSymbol symbol graph.module = view then
      some (symbol, graph.module)
    else
      none
  | none => none

/-- A facet arrives exactly where the graph has a record. -/
theorem facet?_eq_map_recordAt? (graph : SymbolGraph) (isMain : Bool) (identifier : String)
    (view : View) :
    graph.facet? isMain identifier view =
      (graph.recordAt? identifier view).map fun record =>
        Facet.ofSymbol record.1 record.2 isMain := by
  rw [facet?, UnifiedGraph.wellKeyed, Table.get?_filter, recordAt?]
  cases graph.symbols.get? identifier with
  | none => rfl
  | some symbol =>
    by_cases own : symbol.identifier = identifier
    · by_cases here : View.ofSymbol symbol graph.module = view <;>
        simp [Option.filter, own, here]
    · simp [Option.filter, own]

end SymbolGraph

/-- The records that main graphs have for an identifier in a view, as they arrive. -/
def mainRecords (arrivals : List Arrival) (identifier : String) (view : View) :
    List ModuleRecord :=
  arrivals.filterMap fun arrival =>
    if arrival.role.isMain then arrival.graph.recordAt? identifier view else none

/-- The last of the things that some records have. -/
def lastGiven {α : Type} (records : List ModuleRecord) (part : Symbol → Option α) : Option α :=
  (records.filterMap fun record => part record.1).getLast?

theorem lastGiven_append {α : Type} (records : List ModuleRecord) (record : ModuleRecord)
    (part : Symbol → Option α) :
    lastGiven (records ++ [record]) part = (part record.1).or (lastGiven records part) := by
  rw [lastGiven, List.filterMap_append, List.getLast?_append, lastGiven]
  cases own : part record.1 with
  | none => rw [List.filterMap_cons_none (by exact own)]; rfl
  | some given => rw [List.filterMap_cons_some (by exact own)]; rfl

/-- Once there are main records, a facet says what the last of them says, slot by slot. -/
structure Facet.FollowsMain (records : List ModuleRecord) (held : Option Facet) : Prop where
  /-- The last main record decides what every record says. -/
  slots : ∀ record, records.getLast? = some record → ∃ facet, held = some facet ∧
    facet.isMain = true ∧ facet.module = record.2 ∧ facet.description = record.1.description
  /-- The last main record with a comment decides the comment. -/
  comment : ∀ comment, lastGiven records (·.comment) = some comment → ∃ facet,
    held = some facet ∧ facet.comment = some comment
  /-- The last main record with a mixin under a key decides that mixin. -/
  mixins : ∀ key mixin, lastGiven records (Table.get? ·.mixins key) = some mixin → ∃ facet,
    held = some facet ∧ Table.get? facet.mixins key = some mixin

namespace Facet.FollowsMain

variable {records : List ModuleRecord} {held : Option Facet}

/-- Without main records nothing is asked. -/
theorem of_nil (held : Option Facet) : FollowsMain [] held where
  slots _ last := by cases last
  comment _ last := by cases last
  mixins _ _ last := by cases last

/-- What an extension says stays below what main records said. -/
theorem extension (follows : FollowsMain records held) {arrived : Facet}
    (isExtension : arrived.isMain = false) :
    FollowsMain records (afterArrival held (some arrived)) := by
  cases last : records.getLast? with
  | none =>
    rw [List.getLast?_eq_none_iff.1 last]
    exact of_nil _
  | some record =>
    obtain ⟨facet, rfl, isMain, module, description⟩ := follows.slots record last
    have kept : afterArrival (some facet) (some arrived) = some (facet.above arrived) :=
      congrArg some (receive_extension isMain isExtension)
    rw [kept]
    refine ⟨fun other same => ?_, fun comment given => ?_, fun key mixin given => ?_⟩
    · rw [last] at same
      obtain rfl := Option.some.inj same
      refine ⟨_, rfl, ?_, module, description⟩
      simp [above, isMain]
    · obtain ⟨_, same, said⟩ := follows.comment comment given
      obtain rfl := Option.some.inj same
      exact ⟨_, rfl, by simp [above, said]⟩
    · obtain ⟨_, same, said⟩ := follows.mixins key mixin given
      obtain rfl := Option.some.inj same
      exact ⟨_, rfl, by rw [get?_mixins_above, said, Option.some_or]⟩

/-- What a main record says lies above everything that was said before. -/
theorem main (follows : FollowsMain records held) (record : ModuleRecord) :
    FollowsMain (records ++ [record])
      (afterArrival held (some (Facet.ofSymbol record.1 record.2 true))) := by
  obtain ⟨facet, arrived, isMain, module, description, comment, mixins⟩ : ∃ facet : Facet,
      afterArrival held (some (Facet.ofSymbol record.1 record.2 true)) = some facet ∧
        facet.isMain = true ∧ facet.module = record.2 ∧
        facet.description = record.1.description ∧
        facet.comment = record.1.comment.or (held.bind (·.comment)) ∧
        ∀ key, Table.get? facet.mixins key =
          (Table.get? record.1.mixins key).or (held.bind (Table.get? ·.mixins key)) := by
    cases held with
    | none => exact ⟨_, rfl, rfl, rfl, rfl, by simp [ofSymbol], by simp [ofSymbol]⟩
    | some below =>
      refine ⟨(Facet.ofSymbol record.1 record.2 true).above below, ?_, rfl, rfl, rfl, rfl, ?_⟩
      · exact congrArg some (receive_main below rfl)
      · intro key
        exact get?_mixins_above ..
  rw [arrived]
  refine ⟨fun last same => ?_, fun said given => ?_, fun key mixin given => ?_⟩
  · rw [List.getLast?_concat] at same
    obtain rfl := Option.some.inj same
    exact ⟨facet, rfl, isMain, module, description⟩
  · refine ⟨facet, rfl, ?_⟩
    rw [lastGiven_append] at given
    rw [comment]
    cases own : record.1.comment with
    | some _ => rwa [own] at given
    | none =>
      rw [own, Option.none_or] at given
      obtain ⟨below, rfl, told⟩ := follows.comment said given
      exact told
  · refine ⟨facet, rfl, ?_⟩
    rw [lastGiven_append] at given
    rw [mixins]
    cases own : Table.get? record.1.mixins key with
    | some _ => rwa [own] at given
    | none =>
      rw [own, Option.none_or] at given
      obtain ⟨below, rfl, told⟩ := follows.mixins key mixin given
      exact told

/-- **One arrival keeps a facet in line with the main records.** -/
theorem step (follows : FollowsMain records held) (arrival : Arrival) (identifier : String)
    (view : View) :
    FollowsMain (records ++ mainRecords [arrival] identifier view)
      (afterArrival held (arrival.facet? identifier view)) := by
  rw [Arrival.facet?, SymbolGraph.facet?_eq_map_recordAt?, mainRecords, List.filterMap_cons]
  cases said : arrival.graph.recordAt? identifier view with
  | none =>
    have silent : afterArrival held none = held := Option.merge_none_right
    simpa [silent] using follows
  | some record =>
    cases role : arrival.role.isMain with
    | true => simpa using follows.main record
    | false =>
      have isExtension : (Facet.ofSymbol record.1 record.2 false).isMain = false := rfl
      simpa using follows.extension isExtension

end Facet.FollowsMain

namespace UnifiedGraph

/-- After any run of merges every facet is in line with the main records of the run. -/
theorem followsMain_mergeAll (unified : UnifiedGraph) (arrivals : List Arrival)
    (identifier : String) (view : View) :
    Facet.FollowsMain (mainRecords arrivals identifier view)
      ((unified.mergeAll arrivals).facetAt identifier view) := by
  rw [facetAt_mergeAll]
  induction arrivals using List.reverseRecOn with
  | nil => exact .of_nil _
  | append_singleton before arrival ih =>
    rw [List.foldl_append, mainRecords, List.filterMap_append]
    exact ih.step arrival identifier view

/-- **Main data wins**: where some main graph of a run has a record, the slots that every record
fills are those of the last main record, and a comment or a mixin is that of the last main record
that has one. -/
theorem facetAt_mergeAll_main (unified : UnifiedGraph) (arrivals : List Arrival)
    (identifier : String) (view : View) {symbol : Symbol} {module : Module}
    (last : (mainRecords arrivals identifier view).getLast? = some (symbol, module)) :
    ∃ facet, (unified.mergeAll arrivals).facetAt identifier view = some facet ∧
      facet.module = module ∧
      facet.description.kind = symbol.description.kind ∧
      facet.description.names = symbol.description.names ∧
      facet.description.path = symbol.description.path ∧
      facet.description.accessLevel = symbol.description.accessLevel ∧
      (∀ comment, lastGiven (mainRecords arrivals identifier view) (·.comment) = some comment →
        facet.comment = some comment) ∧
      ∀ key mixin,
        lastGiven (mainRecords arrivals identifier view) (Table.get? ·.mixins key) = some mixin →
          Table.get? facet.mixins key = some mixin := by
  have follows := unified.followsMain_mergeAll arrivals identifier view
  obtain ⟨facet, known, -, module, description⟩ := follows.slots _ last
  refine ⟨facet, known, module, ?_, ?_, ?_, ?_, ?_, ?_⟩
  · rw [description]
  · rw [description]
  · rw [description]
  · rw [description]
  · intro comment given
    obtain ⟨_, same, said⟩ := follows.comment comment given
    rw [known] at same
    rwa [Option.some.inj same]
  · intro key mixin given
    obtain ⟨_, same, said⟩ := follows.mixins key mixin given
    rw [known] at same
    rwa [Option.some.inj same]

end UnifiedGraph

/-- The view of one language without a platform. -/
def swiftView : View :=
  { language := "swift" }

/-- A module of which only the name is known. -/
def kit : Module :=
  { name := "Kit" }

/-- A class with these lines as its comment, or without a comment. -/
def widget (lines : List String) : Symbol :=
  { identifier := "widget"
    language := "swift"
    description :=
      { kind := { identifier := .classType, displayName := "Class", source := "swift.class" }
        path := ["Widget"]
        names := { title := "Widget" }
        accessLevel := "public" }
    comment := if lines = [] then none else some (.ofLines lines) }

/-- A graph that has only the class. -/
def widgetArrival (source : String) (role : GraphRole) (lines : List String) : Arrival :=
  { graph := SymbolGraph.addSymbol { module := kit } (widget lines), source, role }

/-- Two main records, of which the second has no comment, among extensions that have one. -/
def contested : List Arrival :=
  [widgetArrival "Before@Kit.symbols.json" (.extending "Kit") ["Before."],
    widgetArrival "Kit.symbols.json" .main ["Main."],
    widgetArrival "Between@Kit.symbols.json" (.extending "Kit") ["Between."],
    widgetArrival "Kit.more.symbols.json" .main [],
    widgetArrival "After@Kit.symbols.json" (.extending "Kit") ["After."]]

theorem UnifiedGraph.facetAt_mergeAll_main_contested :
    (mainRecords contested "widget" swiftView).getLast? = some (widget [], kit) ∧
      ∃ facet, ((UnifiedGraph.empty "Kit").mergeAll contested).facetAt "widget" swiftView =
          some facet ∧
        facet.comment = some (.ofLines ["Main."]) := by
  have last : (mainRecords contested "widget" swiftView).getLast? = some (widget [], kit) := by
    decide +kernel
  obtain ⟨facet, known, -, -, -, -, -, comment, -⟩ :=
    (UnifiedGraph.empty "Kit").facetAt_mergeAll_main contested "widget" swiftView last
  exact ⟨last, facet, known, comment _ (by decide +kernel)⟩

/-! ## One main record and one extension -/

/-- Where a main record is silent, an earlier extension and a later one do not contradict each
other. -/
structure AgreeBelow (main : Symbol) (held : Facet) (extension : Symbol) : Prop where
  comment : main.comment = none → ∀ earlier later, held.comment = some earlier →
    extension.comment = some later → earlier = later
  mixins : ∀ key, Table.get? main.mixins key = none → ∀ earlier later,
    Table.get? held.mixins key = some earlier → Table.get? extension.mixins key = some later →
      earlier = later

/-- What is below something may change places exactly if it agrees where it is seen. -/
theorem Option.or_or_comm_iff {α : Type} (upper first second : Option α) :
    upper.or (first.or second) = upper.or (second.or first) ↔
      (upper = none → ∀ one other, first = some one → second = some other → one = other) := by
  cases upper <;> cases first <;> cases second <;> simp

namespace Facet

/-- Facets below one that decides may change places exactly if they agree where they are seen. -/
theorem above_above_comm_iff {upper first second : Facet} (isMain : upper.isMain = true) :
    upper.above (first.above second) = upper.above (second.above first) ↔
      (upper.comment = none → ∀ one other, first.comment = some one →
          second.comment = some other → one = other) ∧
        ∀ key, Table.get? upper.mixins key = none → ∀ one other,
          Table.get? first.mixins key = some one → Table.get? second.mixins key = some other →
            one = other := by
  rw [← Option.or_or_comm_iff]
  simp only [← Option.or_or_comm_iff]
  constructor
  · intro same
    refine ⟨congrArg Facet.comment same, fun key => ?_⟩
    have mixins := congrArg (fun facet => Table.get? facet.mixins key) same
    simpa only [get?_mixins_above] using mixins
  · rintro ⟨comment, mixins⟩
    have tables : (upper.above (first.above second)).mixins =
        (upper.above (second.above first)).mixins := by
      apply Table.ext_get?
      intro key
      simpa only [get?_mixins_above] using mixins key
    have flags : (upper.above (first.above second)).isMain =
        (upper.above (second.above first)).isMain := by
      simp [above, isMain]
    simp only [above, Facet.mk.injEq] at comment tables flags ⊢
    exact ⟨trivial, trivial, comment, tables, flags⟩

/-- A main facet and one of an extension come to the same in either order exactly if something of
a main graph was there before or what was there agrees with the extension. -/
theorem receive_receive_comm_iff (held : Facet) (main extension : Symbol)
    (mainModule extensionModule : Module) :
    (held.receive (ofSymbol main mainModule true)).receive
          (ofSymbol extension extensionModule false) =
        (held.receive (ofSymbol extension extensionModule false)).receive
          (ofSymbol main mainModule true) ↔
      held.isMain = true ∨ AgreeBelow main held extension := by
  have ofMain : (ofSymbol main mainModule true).isMain = true := rfl
  have ofExtension : (ofSymbol extension extensionModule false).isMain = false := rfl
  have mainFirst : (held.receive (ofSymbol main mainModule true)).receive
        (ofSymbol extension extensionModule false) =
      (ofSymbol main mainModule true).above
        (held.above (ofSymbol extension extensionModule false)) := by
    rw [receive_main held ofMain, receive_extension rfl ofExtension, above_assoc]
  rw [mainFirst, receive_main _ ofMain]
  cases isMain : held.isMain with
  | true => simp [receive_extension isMain ofExtension]
  | false =>
    rw [receive_of_not_main isMain, above_above_comm_iff ofMain]
    constructor
    · rintro ⟨comment, mixins⟩
      exact .inr ⟨comment, mixins⟩
    · rintro (wrong | agree)
      · cases wrong
      · exact ⟨agree.comment, agree.mixins⟩

end Facet

namespace UnifiedSymbol

/-- Two records for one view come to the same in either order exactly if their facets do. -/
theorem record_record_comm_iff (symbol : UnifiedSymbol) (view : View) (first second : Facet) :
    (symbol.record view first).record view second = (symbol.record view second).record view first ↔
      match symbol.facet? view with
      | none => first.receive second = second.receive first
      | some held => (held.receive first).receive second = (held.receive second).receive first := by
  have atView : ∀ one other : Facet, ((symbol.record view one).record view other).facet? view =
      some (match symbol.facet? view with
        | none => one.receive other
        | some held => (held.receive one).receive other) := by
    intro one other
    rw [facet?_record, if_pos rfl, facet?_record, if_pos rfl]
    cases symbol.facet? view <;> rfl
  constructor
  · intro same
    have facets := congrArg (fun symbol => symbol.facet? view) same
    simp only [atView, Option.some.injEq] at facets
    cases known : symbol.facet? view <;> simpa [known] using facets
  · intro same
    refine ext_facet? rfl fun other => ?_
    by_cases here : other = view
    · subst here
      rw [atView, atView]
      cases known : symbol.facet? other <;> simpa [known] using same
    · simp only [facet?_record, if_neg here]

/-- Records of the symbol itself are merged without a mismatch. -/
theorem merge_eq_ok (symbol : UnifiedSymbol) {arrived : Symbol}
    (own : arrived.identifier = symbol.identifier) (view : View) (module : Module)
    (isMain : Bool) :
    symbol.merge arrived view module isMain =
      .ok (symbol.record view (Facet.ofSymbol arrived module isMain)) := by
  rw [merge, if_pos own]

/-- **When a main record and one of an extension may change places**: always if a main graph has
been seen in the view or nothing at all, and otherwise exactly if the extension agrees with what
extensions said before wherever the main record is silent. -/
theorem merge_main_extension_comm_iff (symbol : UnifiedSymbol) (view : View)
    {main extension : Symbol} (ofMain : main.identifier = symbol.identifier)
    (ofExtension : extension.identifier = symbol.identifier)
    (mainModule extensionModule : Module) :
    ∃ mainFirst extensionFirst : UnifiedSymbol,
      (do
        let sofar ← symbol.merge main view mainModule true
        sofar.merge extension view extensionModule false) = .ok mainFirst ∧
      (do
        let sofar ← symbol.merge extension view extensionModule false
        sofar.merge main view mainModule true) = .ok extensionFirst ∧
      (mainFirst = extensionFirst ↔ ∀ held, symbol.facet? view = some held →
        held.isMain = true ∨ AgreeBelow main held extension) := by
  refine ⟨(symbol.record view (Facet.ofSymbol main mainModule true)).record view
      (Facet.ofSymbol extension extensionModule false),
    (symbol.record view (Facet.ofSymbol extension extensionModule false)).record view
      (Facet.ofSymbol main mainModule true), ?_, ?_, ?_⟩
  · rw [symbol.merge_eq_ok ofMain]
    exact (symbol.record view _).merge_eq_ok ofExtension view extensionModule false
  · rw [symbol.merge_eq_ok ofExtension]
    exact (symbol.record view _).merge_eq_ok ofMain view mainModule true
  · rw [record_record_comm_iff]
    cases symbol.facet? view with
    | none =>
      have apart : (Facet.ofSymbol main mainModule true).isMain ≠
          (Facet.ofSymbol extension extensionModule false).isMain := Bool.noConfusion
      simp [Facet.receive_comm apart]
    | some held => simp [Facet.receive_receive_comm_iff]

/-- A class of which an extension has said something and no main graph anything. -/
def extendedWidget : UnifiedSymbol :=
  UnifiedSymbol.ofSymbol (widget ["First extension."]) swiftView kit false

theorem merge_main_extension_comm_widget :
    (widget []).identifier = extendedWidget.identifier ∧
      (widget ["First extension."]).identifier = extendedWidget.identifier ∧
      ∃ mainFirst extensionFirst : UnifiedSymbol,
        (do
          let sofar ← extendedWidget.merge (widget []) swiftView kit true
          sofar.merge (widget ["First extension."]) swiftView kit false) = .ok mainFirst ∧
        (do
          let sofar ← extendedWidget.merge (widget ["First extension."]) swiftView kit false
          sofar.merge (widget []) swiftView kit true) = .ok extensionFirst ∧
        mainFirst = extensionFirst := by
  have ofMain : (widget []).identifier = extendedWidget.identifier := rfl
  have ofExtension : (widget ["First extension."]).identifier = extendedWidget.identifier := rfl
  obtain ⟨mainFirst, extensionFirst, one, other, same⟩ :=
    extendedWidget.merge_main_extension_comm_iff swiftView ofMain ofExtension kit kit
  refine ⟨ofMain, ofExtension, mainFirst, extensionFirst, one, other, same.2 fun held known => ?_⟩
  have first : extendedWidget.facet? swiftView =
      some (Facet.ofSymbol (widget ["First extension."]) kit false) := by decide +kernel
  rw [first] at known
  obtain rfl := Option.some.inj known
  refine .inr ⟨fun _ earlier later before after => ?_, fun key _ earlier later _ after => ?_⟩
  · exact Option.some.inj (before.symm.trans after)
  · cases after

/-- A main record without a comment keeps a later extension from replacing an earlier one. -/
theorem merge_main_extension_not_comm :
    (do
      let sofar ← extendedWidget.merge (widget []) swiftView kit true
      sofar.merge (widget ["Second extension."]) swiftView kit false) ≠
    (do
      let sofar ← extendedWidget.merge (widget ["Second extension."]) swiftView kit false
      sofar.merge (widget []) swiftView kit true) := by
  decide +kernel

end UnifiedSymbol

end ApiAtlas
