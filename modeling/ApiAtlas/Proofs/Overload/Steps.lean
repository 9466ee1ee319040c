import ApiAtlas.Proofs.Overload.ExactGroups

/-!
# Runs of steps

Three things are done to a unified graph: a graph is merged into it, its
overloads are grouped in some languages, and its orphans are collected
(`UnifiedGraph.Step`). The graphs that can be reached are those that a run of
steps makes of a graph of which nothing has been merged
(`UnifiedGraph.reachable_iff`).
-/

set_option autoImplicit false

namespace ApiAtlas.UnifiedGraph

/-- Something that is done to a unified graph. -/
inductive Step
  | merge (graph : SymbolGraph) (source : String) (isMain : Bool)
  | group (scope : Overload.Scope)
  | collectOrphans

/-- The graph once the step is done. -/
def Step.run : Step → UnifiedGraph → UnifiedGraph
  | merge graph source isMain, unified => unified.merge graph source isMain
  | group scope, unified => Overload.groupUnified scope unified
  | collectOrphans, unified => unified.collectOrphans

/-- The graph once all steps are done, one after the other. -/
def after (unified : UnifiedGraph) (steps : List Step) : UnifiedGraph :=
  steps.foldl (fun sofar step => step.run sofar) unified

variable {unified : UnifiedGraph}

@[simp]
theorem after_nil (unified : UnifiedGraph) : unified.after [] = unified :=
  rfl

@[simp]
theorem after_cons (unified : UnifiedGraph) (step : Step) (rest : List Step) :
    unified.after (step :: rest) = (step.run unified).after rest :=
  rfl

theorem after_append (unified : UnifiedGraph) (first second : List Step) :
    unified.after (first ++ second) = (unified.after first).after second :=
  List.foldl_append

theorem Reachable.step (reachable : unified.Reachable) (step : Step) :
    (step.run unified).Reachable := by
  cases step with
  | merge graph source isMain => exact .merge graph source isMain reachable
  | group scope => exact .group scope reachable
  | collectOrphans => exact .collectOrphans reachable

theorem Reachable.after (reachable : unified.Reachable) (steps : List Step) :
    (unified.after steps).Reachable := by
  induction steps generalizing unified with
  | nil => exact reachable
  | cons step rest ih => exact ih (reachable.step step)

/-- **A graph can be reached exactly if a run of steps leads to it.** -/
theorem reachable_iff :
    unified.Reachable ↔ ∃ moduleName steps, (empty moduleName).after steps = unified := by
  constructor
  · have next : ∀ (before : UnifiedGraph) (step : Step),
        (∃ moduleName steps, (empty moduleName).after steps = before) →
        ∃ moduleName steps, (empty moduleName).after steps = step.run before := by
      rintro _ step ⟨moduleName, steps, rfl⟩
      exact ⟨moduleName, steps ++ [step], after_append ..⟩
    intro reachable
    induction reachable with
    | empty moduleName => exact ⟨moduleName, [], rfl⟩
    | merge graph source isMain _ ih => exact next _ (.merge graph source isMain) ih
    | group scope _ ih => exact next _ (.group scope) ih
    | collectOrphans _ ih => exact next _ .collectOrphans ih
  · rintro ⟨moduleName, steps, rfl⟩
    exact (Reachable.empty moduleName).after steps

end ApiAtlas.UnifiedGraph
