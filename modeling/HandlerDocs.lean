import HandlerDocs.Main
import HandlerDocs.Proofs.EndpointDoc.Item
import HandlerDocs.Proofs.EndpointDoc.Order
import HandlerDocs.Proofs.EndpointDoc.Written
import HandlerDocs.Proofs.EndpointDoc.Normal
import HandlerDocs.Proofs.EndpointDoc.RoundTrip
import HandlerDocs.Proofs.EndpointDoc.Merge
import HandlerDocs.Proofs.EndpointDoc.Settled
import HandlerDocs.Proofs.Code.Lookahead
import HandlerDocs.Proofs.Code.Lexeme
import HandlerDocs.Proofs.Code.Relex
import HandlerDocs.Proofs.Code.Comment
import HandlerDocs.Proofs.Code.Pieces
import HandlerDocs.Proofs.SourceFile.Revision
import HandlerDocs.Proofs.SourceFile.Reload
import HandlerDocs.Proofs.Disk.Write
import HandlerDocs.Proofs.Project.Edits
import HandlerDocs.Proofs.Project.Reload
import HandlerDocs.Proofs.EndpointDoc.Lines
import HandlerDocs.Proofs.Overview
import HandlerDocs.Proofs.Project.Annotate
import HandlerDocs.Proofs.EndpointDoc.Derived
import HandlerDocs.Proofs.EndpointDoc.Survival
import HandlerDocs.Proofs.Project.Describe
import HandlerDocs.Proofs.Generation.Document
import HandlerDocs.Proofs.Generation.SecondRun
import HandlerDocs.Proofs.SourceFile.Placement
import HandlerDocs.Proofs.SourceFile.Frame
import HandlerDocs.Proofs.SourceFile.SetDoc
import HandlerDocs.Proofs.Generation.Comments
import HandlerDocs.Proofs.Descent
import HandlerDocs.Proofs.Flow.Values
import HandlerDocs.Proofs.Flow.Plan
import HandlerDocs.Proofs.Routing.Plan
import HandlerDocs.Proofs.Routing.Filter
import HandlerDocs.Proofs.Limits
import HandlerDocs.Proofs.Isolation
import HandlerDocs.Proofs.Shape
import HandlerDocs.Proofs.Flow.Resolved
import HandlerDocs.Proofs.Flow.Reach
import HandlerDocs.Proofs.Routing.Path
import HandlerDocs.Proofs.Routing.WellFormed
import HandlerDocs.Proofs.Routing.Hygiene
import HandlerDocs.Proofs.EndpointDoc.Distinct
import HandlerDocs.Proofs.EndpointDoc.Interleaving
import HandlerDocs.Proofs.Routing.CodeOnly
import HandlerDocs.Proofs.SourceFile.Session
import HandlerDocs.Proofs.Routing.Coverage
import HandlerDocs.Proofs.Project.Resume
import HandlerDocs.Proofs.Routing.Foremost
import HandlerDocs.Proofs.Generation.Writes
import HandlerDocs.Proofs.Generation.Loading
import HandlerDocs.Proofs.EndpointDoc.Tokens
import HandlerDocs.Proofs.EndpointDoc.Accumulated
import HandlerDocs.Proofs.Flow.FieldWrite
import HandlerDocs.Proofs.Flow.Sources
import HandlerDocs.Proofs.Routing.Simultaneous
import HandlerDocs.Proofs.Shape.Path
import HandlerDocs.Proofs.Project.Lookup
import HandlerDocs.Proofs.Qualify
import HandlerDocs.Proofs.Routing.Join
import HandlerDocs.Proofs.Routing.Params
import HandlerDocs.Proofs.Overview.Stable
import HandlerDocs.Proofs.Code.LineComment
import HandlerDocs.Proofs.SourceFile.Spans
import HandlerDocs.Proofs.Declaration.Tag
import HandlerDocs.Proofs.Naming
