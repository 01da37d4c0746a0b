import TypeGraph.Arena.ReadBack
import TypeGraph.Model.History
import TypeGraph.Proofs.CacheIndependence
import TypeGraph.Proofs.CanonicalIdentity
import TypeGraph.Proofs.FailedRequests
import TypeGraph.Proofs.LiveSet
import TypeGraph.Proofs.SuccessCondition
import TypeGraph.Tree.Denotation
import TypeGraph.Proofs.Dangling
import TypeGraph.Proofs.Renaming
import TypeGraph.Proofs.RequestOrder
import TypeGraph.Proofs.DefinitionRows
import TypeGraph.Proofs.Unfolding
import TypeGraph.Proofs.Termination
import TypeGraph.Proofs.FullNames
import TypeGraph.Proofs.Surveys
import TypeGraph.Proofs.DepthLimit
import TypeGraph.Proofs.InternalFaults
import TypeGraph.Proofs.OpenTypes
import TypeGraph.Proofs.Origins
import TypeGraph.Proofs.Memos
import TypeGraph.Proofs.Likeness
import TypeGraph.Proofs.Decoration
import TypeGraph.Proofs.Leftovers
import TypeGraph.Proofs.QualifiedNames
import TypeGraph.Proofs.Renderings
import TypeGraph.Proofs.MemberRuns
import TypeGraph.Proofs.InternedOffsets
import TypeGraph.Proofs.BuildHistory
import TypeGraph.Proofs.FreshAddresses
import TypeGraph.Proofs.InnerOffsets
import TypeGraph.Proofs.Classification
import TypeGraph.Proofs.Recordings
