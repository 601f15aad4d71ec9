import SimilarityStore.Server.Backend
import SimilarityStore.Store.Memory.View
import SimilarityStore.Store.Scripted
import SimilarityStore.Store.TextIndex
import SimilarityStore.Proofs.Predicate.Grammar
import SimilarityStore.Proofs.Predicate.GrammarParsing
import SimilarityStore.Proofs.Numeric.BitPattern
import SimilarityStore.Proofs.Numeric.DecimalRounding
import SimilarityStore.Proofs.Numeric.PlainNumeral
import SimilarityStore.Proofs.Filter.Meaning
import SimilarityStore.Proofs.Filter.Translation
import SimilarityStore.Proofs.Filter.Compilation
import SimilarityStore.Proofs.Store.Session
import SimilarityStore.Proofs.Store.Ranking
import SimilarityStore.Proofs.Store.Operations
import SimilarityStore.Proofs.Store.LiveEntries
import SimilarityStore.Proofs.Store.SearchResults
import SimilarityStore.Proofs.Store.Dimensions
import SimilarityStore.Proofs.Text.ByteOrder
import SimilarityStore.Proofs.Store.Dialogue
import SimilarityStore.Proofs.Store.SimilaritySearch
import SimilarityStore.Proofs.Store.Searching
import SimilarityStore.Proofs.Store.Batches
import SimilarityStore.Proofs.Server.ReplyRows
import SimilarityStore.Proofs.Server.SearchOverLink
import SimilarityStore.Proofs.Filter.UnusualKeys
import SimilarityStore.Proofs.Store.FilteredSearch
import SimilarityStore.Proofs.Json.Numerals
import SimilarityStore.Proofs.Json.RoundTrip
import SimilarityStore.Proofs.Filter.Documents
import SimilarityStore.Proofs.Numeric.Arithmetic
import SimilarityStore.Proofs.Store.ScoreRange
import SimilarityStore.Proofs.Store.StoredBatch
import SimilarityStore.Proofs.Store.Removals
import SimilarityStore.Proofs.Store.NewIds
import SimilarityStore.Proofs.Store.Footprints
import SimilarityStore.Proofs.Store.IndexedText
import SimilarityStore.Proofs.Store.ConcurrentBatches
import SimilarityStore.Proofs.Server.ProtocolVersions
import SimilarityStore.Proofs.Server.CommandFraming
import SimilarityStore.Proofs.Filter.Obstacles
import SimilarityStore.Proofs.Predicate.Lexemes
import SimilarityStore.Proofs.Numeric.Differences
import SimilarityStore.Proofs.Json.NumberValues
import SimilarityStore.Proofs.Numeric.ExactValues
import SimilarityStore.Proofs.Predicate.Comparisons
import SimilarityStore.Proofs.Filter.IntegerOrder
import SimilarityStore.Proofs.Numeric.Complements
import SimilarityStore.Proofs.Store.LeastScore
import SimilarityStore.Proofs.Predicate.NamedAttributes
import SimilarityStore.Proofs.Store.TextOperations
