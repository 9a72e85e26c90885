import KeyedRelations.Block.Codec
import KeyedRelations.CommandLine.Workspace
import KeyedRelations.Main
import KeyedRelations.Query.Codec
import KeyedRelations.Store.Probe
import KeyedRelations.Store.Scripted
import KeyedRelations.Proofs.Console
import KeyedRelations.Proofs.Mutation.Clients
import KeyedRelations.Proofs.Plan.Acceptance
import KeyedRelations.Proofs.Scan.Alone
import KeyedRelations.Proofs.Scan.Answers
import KeyedRelations.Proofs.Scan.Narrowing
import KeyedRelations.Proofs.Scan.Outcome
import KeyedRelations.Proofs.Scan.Paging
import KeyedRelations.Proofs.Scan.Resumed
import KeyedRelations.Proofs.Selection.Joins
import KeyedRelations.Proofs.Selection.Meaning
import KeyedRelations.Proofs.Selection.Operands
import KeyedRelations.Proofs.Storage.Affected
import KeyedRelations.Proofs.Storage.Atomicity
import KeyedRelations.Proofs.Storage.Change
import KeyedRelations.Proofs.Storage.Disjoint
import KeyedRelations.Proofs.Storage.Parallel
import KeyedRelations.Proofs.Storage.Put
import KeyedRelations.Proofs.Storage.Rejection
import KeyedRelations.Proofs.Storage.Sessions
import KeyedRelations.Proofs.Store.Nested
import KeyedRelations.Proofs.Store.Lending
import KeyedRelations.Proofs.Store.Cursors.Requests
import KeyedRelations.Proofs.Assembly
import KeyedRelations.Proofs.Glob.Grammar
import KeyedRelations.Proofs.Json.Printing
import KeyedRelations.Proofs.Json.Rewriting
import KeyedRelations.Proofs.Query.Json
import KeyedRelations.Proofs.Storage.Shown
import KeyedRelations.Proofs.Error
import KeyedRelations.Proofs.Catalog.Listing
import KeyedRelations.Proofs.Presentation
import KeyedRelations.Proofs.Presentation.Documents
