import RouteImpact.Main
import RouteImpact.Tool.Catalog
import RouteImpact.Proofs.Data.Containers
import RouteImpact.Proofs.Graph.Operations
import RouteImpact.Proofs.Graph.Consistency
import RouteImpact.Proofs.Impact.Search
import RouteImpact.Proofs.Impact.Reachability
import RouteImpact.Proofs.Impact.Coherence
import RouteImpact.Proofs.Analysis.Steps
import RouteImpact.Proofs.Analysis.Coherence
import RouteImpact.Proofs.Json.TextLiteral
import RouteImpact.Proofs.Json.Numeral
import RouteImpact.Proofs.Number.Range
import RouteImpact.Proofs.Json.RoundTrip
import RouteImpact.Proofs.Graph.RoundTrip
import RouteImpact.Proofs.Path.Names
import RouteImpact.Proofs.Disk.Sound
import RouteImpact.Proofs.Store.Footprint
import RouteImpact.Proofs.Analysis.Building
import RouteImpact.Proofs.Analysis.Rebuild
import RouteImpact.Proofs.Syntax.Index
import RouteImpact.Proofs.Analysis.Recall
import RouteImpact.Proofs.Component.Narrowing
import RouteImpact.Proofs.Component.Serving
import RouteImpact.Proofs.Graph.History
import RouteImpact.Proofs.Data.Sorting
import RouteImpact.Proofs.Graph.Commutation
import RouteImpact.Proofs.Project.Extraction
import RouteImpact.Proofs.Project.BuildOrder
import RouteImpact.Proofs.Path.Spelling
import RouteImpact.Proofs.Analysis.Questions
import RouteImpact.Proofs.Analysis.QueryOrder
import RouteImpact.Proofs.Json.FloatLiteral
import RouteImpact.Proofs.Store.Retrieval
import RouteImpact.Proofs.Analysis.Upkeep
import RouteImpact.Proofs.Analysis.Restart
import RouteImpact.Proofs.Impact.Layers
import RouteImpact.Proofs.Impact.StaleEdges
import RouteImpact.Proofs.Store.Loading
import RouteImpact.Proofs.Analysis.Watching
import RouteImpact.Proofs.Analysis.Returning
import RouteImpact.Proofs.Analysis.EntryPoints
import RouteImpact.Proofs.Graph.Upserts
import RouteImpact.Proofs.Analysis.Pruning
import RouteImpact.Proofs.Store.Replacement
import RouteImpact.Proofs.Route.Recognizers
import RouteImpact.Proofs.Analysis.Interchange
import RouteImpact.Proofs.Analysis.FirstBuild
import RouteImpact.Proofs.Disk.Places
import RouteImpact.Proofs.Impact.EarlyStop
import RouteImpact.Proofs.Impact.Invalidation
import RouteImpact.Proofs.Store.Listing
import RouteImpact.Proofs.Store.Breakdown
import RouteImpact.Proofs.Disk.Making
import RouteImpact.Proofs.Store.Mirror
import RouteImpact.Proofs.Store.Refinement
import RouteImpact.Proofs.Analysis.Freshness
import RouteImpact.Proofs.Component.Origins
import RouteImpact.Proofs.Component.Agreement
import RouteImpact.Proofs.Path.Normal
import RouteImpact.Proofs.Fact.Resolution
import RouteImpact.Proofs.Component.Standing
import RouteImpact.Proofs.Project.Acceptance
import RouteImpact.Proofs.Syntax.Order
import RouteImpact.Proofs.Route.Parameters
import RouteImpact.Proofs.Route.Markup
import RouteImpact.Proofs.Route.Objects
import RouteImpact.Proofs.Route.Trees
import RouteImpact.Proofs.Route.Agreement
import RouteImpact.Proofs.Json.Fields
import RouteImpact.Proofs.Project.Wildcards
import RouteImpact.Proofs.Settings.Precedence
import RouteImpact.Proofs.Project.Spelling
import RouteImpact.Proofs.Store.Containment
import RouteImpact.Proofs.Route.Joining
import RouteImpact.Proofs.Settings.Stripping
import RouteImpact.Proofs.Json.Format
import RouteImpact.Proofs.Tool.Headers
import RouteImpact.Proofs.Syntax.Walk
