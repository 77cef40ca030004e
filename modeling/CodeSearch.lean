import CodeSearch.Main
import CodeSearch.Proofs.Chunk.Accepted
import CodeSearch.Proofs.Indexing.Concurrency
import CodeSearch.Proofs.Indexing.Persistence
import CodeSearch.Proofs.Lexical.Recovery
import CodeSearch.Rerank.Local
import CodeSearch.Token.Request
import CodeSearch.Workbench
import CodeSearch.Proofs.Indexing.Memory
import CodeSearch.Proofs.Json.Kept
import CodeSearch.Proofs.Indexing.Directory
import CodeSearch.Proofs.Scalar
import CodeSearch.Proofs.Vector.Found
import CodeSearch.Proofs.Invariant
import CodeSearch.Proofs.Lexical.Hits
import CodeSearch.Proofs.Retrieval.PatternQuery
import CodeSearch.Proofs.Retrieval.Results
import CodeSearch.Proofs.Lexical.Deletion
import CodeSearch.Proofs.Lexical.Recall
import CodeSearch.Proofs.Vector.Close
import CodeSearch.Proofs.Retrieval.Anew
import CodeSearch.Proofs.Indexing.Misfit
import CodeSearch.Proofs.Indexing.Skipped
import CodeSearch.Proofs.Indexing.Boundaries
import CodeSearch.Proofs.Token.Scan
import CodeSearch.Proofs.Chat.Replies
import CodeSearch.Proofs.Lexical.Cleared
import CodeSearch.Proofs.CommandLine.Endings
import CodeSearch.Proofs.Query.Conserved
import CodeSearch.Proofs.Query.Padded
import CodeSearch.Proofs.Lexical.Limits
import CodeSearch.Proofs.Vector.Nearest
import CodeSearch.Proofs.Vector.OneWidth
import CodeSearch.Proofs.Indexing.Again
import CodeSearch.Proofs.Graph.Scores
import CodeSearch.Proofs.Graph.Neighbors
import CodeSearch.Proofs.Retrieval.Related
import CodeSearch.Proofs.Retrieval.PatternFaults
import CodeSearch.Proofs.Retrieval.Unheard
import CodeSearch.Proofs.Indexing.Schedule
import CodeSearch.Proofs.Chat.Causes
import CodeSearch.Proofs.Chat.Prose
import CodeSearch.Proofs.Token.Cuts
import CodeSearch.Proofs.Chunk.Ids
import CodeSearch.Proofs.Indexing.Exclusion
import CodeSearch.Proofs.ChunkStore.Reload
