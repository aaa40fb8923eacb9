import BookmarkGraph.Command.FileTree
import BookmarkGraph.Config.Json
import BookmarkGraph.Inspect
import BookmarkGraph.Main
import BookmarkGraph.Pipe.Denotation
import BookmarkGraph.Proofs.Graph.EdgeLists
import BookmarkGraph.Proofs.Graph.Incidence
import BookmarkGraph.Proofs.Pipe.Remaining
import BookmarkGraph.Proofs.Pipe.Denotation
import BookmarkGraph.Proofs.Pipe.LookAhead
import BookmarkGraph.Proofs.Pipe.Reset
import BookmarkGraph.Proofs.Pipe.Laziness
import BookmarkGraph.Proofs.Pipe.Append
import BookmarkGraph.Proofs.Pipe.Rebind
import BookmarkGraph.Proofs.Naming
import BookmarkGraph.Proofs.Enumeration
import BookmarkGraph.Proofs.Domain.Build
import BookmarkGraph.Proofs.Query
import BookmarkGraph.Proofs.Projection
import BookmarkGraph.Proofs.Kinds
import BookmarkGraph.Proofs.Recommend.Offers
import BookmarkGraph.Proofs.Recommend.Batch
import BookmarkGraph.Proofs.Recommend.Visibility
import BookmarkGraph.Proofs.Recommend.Totality
import BookmarkGraph.Proofs.Recommend.Reruns
import BookmarkGraph.Proofs.Recommend.Bookmarks
import BookmarkGraph.Proofs.Domain.Construction
import BookmarkGraph.Proofs.Recommend.Failures
import BookmarkGraph.Proofs.Recommend.Aborts
import BookmarkGraph.Proofs.Number.Whole
import BookmarkGraph.Proofs.Recommend.Keepers
import BookmarkGraph.Proofs.Recommend.Similar
import BookmarkGraph.Proofs.Recommend.Prefixes
import BookmarkGraph.Proofs.Domain.Rendering
import BookmarkGraph.Proofs.Refusals
import BookmarkGraph.Proofs.Laws.Filters
import BookmarkGraph.Proofs.Laws.Projections
import BookmarkGraph.Proofs.Laws.Hops
import BookmarkGraph.Proofs.Laws.Counts
import BookmarkGraph.Proofs.Offences
import BookmarkGraph.Proofs.Pipe.Wiring
import BookmarkGraph.Proofs.Json.Untagged
import BookmarkGraph.Proofs.StepLanguage
import BookmarkGraph.Proofs.Config
import BookmarkGraph.Proofs.Graph.Search
import BookmarkGraph.Proofs.Recommend.Accesses
import BookmarkGraph.Proofs.Number.TotalOrder
import BookmarkGraph.Proofs.Recommend.Awards
import BookmarkGraph.Proofs.Recommend.Writes
