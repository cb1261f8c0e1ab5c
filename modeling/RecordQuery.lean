import RecordQuery.Proofs.MemoryTables
import RecordQuery.Catalog.Declaration
import RecordQuery.Column.Memory
import RecordQuery.Query.Filter
import RecordQuery.Query.Selection
import RecordQuery.Query.Sorting
import RecordQuery.Session
import RecordQuery.Proofs.BoundFilter
import RecordQuery.Proofs.CapturedRun
import RecordQuery.Proofs.DataProjection
import RecordQuery.Proofs.KeyOrder
import RecordQuery.Proofs.NullSafety
import RecordQuery.Proofs.PipelineAgreement
import RecordQuery.Proofs.ProxyPath
import RecordQuery.Proofs.OrderingParts
import RecordQuery.Proofs.TableSchema
import RecordQuery.Proofs.WritableMembers
import RecordQuery.Proofs.SharedSchemas
import RecordQuery.Proofs.SessionAnswers
import RecordQuery.Proofs.OrderedQueries
import RecordQuery.Proofs.PlacedOrder
import RecordQuery.Proofs.MemorySorting
import RecordQuery.Proofs.Resorting
import RecordQuery.Proofs.FilteredOrder
import RecordQuery.Proofs.ProjectedOrder
import RecordQuery.Proofs.UnsortableKeys
import RecordQuery.Proofs.TypedCoercion
import RecordQuery.Proofs.UnionSpelling
import RecordQuery.Proofs.MatchingPlans
import RecordQuery.Proofs.OwnProjection
import RecordQuery.Proofs.CanonicalChains
import RecordQuery.Proofs.NameLookup
import RecordQuery.Proofs.NegatedConditions
import RecordQuery.Proofs.StructTree
import RecordQuery.Proofs.CapturedScope
import RecordQuery.Proofs.ScopedRecords
import RecordQuery.Proofs.ScopedRun
import RecordQuery.Proofs.SerializedMeaning
import RecordQuery.Proofs.BindingOrder
import RecordQuery.Proofs.ArgumentCounts
