import ApiAtlas.Main
import ApiAtlas.Proofs.Table.Lookup
import ApiAtlas.Proofs.Unified.Merging
import ApiAtlas.Proofs.Unified.WellFormed
import ApiAtlas.Proofs.Session.Arrivals
import ApiAtlas.Proofs.Session.ArrivalOrder
import ApiAtlas.Proofs.Overload.Pruning
import ApiAtlas.Proofs.Overload.Adding
import ApiAtlas.Proofs.Overload.Plans
import ApiAtlas.Proofs.Overload.Families
import ApiAtlas.Proofs.Overload.Planning
import ApiAtlas.Proofs.Overload.ExactGroups
import ApiAtlas.Proofs.Overload.GraphGroups
import ApiAtlas.Proofs.Overload.Agreement
import ApiAtlas.Proofs.Session.Absorption
import ApiAtlas.Proofs.Session.Precedence
import ApiAtlas.Proofs.Overload.Regrouping
import ApiAtlas.Proofs.Graph.RoundTrip
import ApiAtlas.Proofs.Session.ViewIsolation
import ApiAtlas.Proofs.Unified.Orphans
import ApiAtlas.Proofs.Session.Orphans
import ApiAtlas.Proofs.Slots.Symbol
import ApiAtlas.Proofs.Slots.Edges
import ApiAtlas.Proofs.Slots.Graph
import ApiAtlas.Proofs.Overload.Steps
import ApiAtlas.Proofs.Slots.Pruning
import ApiAtlas.Proofs.Slots.Adding
import ApiAtlas.Proofs.Overload.Collecting
import ApiAtlas.Proofs.Overload.Untouched
import ApiAtlas.Proofs.Overload.Scopes
import ApiAtlas.Proofs.Overload.Mirroring
import ApiAtlas.Proofs.Overload.GivingGroups
import ApiAtlas.Proofs.Overload.GraphOutcome
import ApiAtlas.Proofs.Overload.Counting
import ApiAtlas.Proofs.Slots.Merges
import ApiAtlas.Proofs.Unified.Parting
import ApiAtlas.Proofs.Unified.Comments
import ApiAtlas.Proofs.Overload.Declarations
import ApiAtlas.Proofs.Declaration.Canonical
import ApiAtlas.Proofs.Declaration.Labels
import ApiAtlas.Proofs.Declaration.Leading
import ApiAtlas.Proofs.Declaration.GenericClauses
import ApiAtlas.Proofs.Graph.Refusals
