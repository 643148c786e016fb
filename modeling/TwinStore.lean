import TwinStore.Config.Assembly
import TwinStore.Config.Reading
import TwinStore.Model.Declaration
import TwinStore.Proofs.CascadeDelete
import TwinStore.Proofs.SearchAgreement
import TwinStore.Proofs.WrittenRows
import TwinStore.Text.Template
import TwinStore.Trace.Program
import TwinStore.Update.Sql
import TwinStore.Proofs.CacheChanges
import TwinStore.Proofs.CacheUpdate
import TwinStore.Proofs.CoherentChanges
import TwinStore.Proofs.CoherentDeletion
import TwinStore.Proofs.CoherentRuns
import TwinStore.Proofs.DecimalDocuments
import TwinStore.Proofs.LosslessMembers
import TwinStore.Proofs.Maintained
import TwinStore.Proofs.PartialJoin
import TwinStore.Proofs.RepeatedReads
import TwinStore.Proofs.SavedRows
import TwinStore.Proofs.SourceOfTruth
import TwinStore.Proofs.WholeMembers
import TwinStore.Proofs.AnsweredFilters
import TwinStore.Proofs.AnsweredOperations
import TwinStore.Proofs.OneReading
import TwinStore.Proofs.CleanedRequests
import TwinStore.Proofs.WrittenRequests
import TwinStore.Proofs.TornReads
import TwinStore.Proofs.CacheRefinement
import TwinStore.Proofs.TracedOperations
import TwinStore.Proofs.DestroyedRows
import TwinStore.Proofs.SkippedMembers
import TwinStore.Proofs.ReadableWrites
import TwinStore.Proofs.SimultaneousUpdates
import TwinStore.Proofs.AcceptedFilters
import TwinStore.Proofs.DoubleArithmetic
import TwinStore.Proofs.Moments
import TwinStore.Proofs.WholeShifts
import TwinStore.Proofs.DateSums
import TwinStore.Proofs.SummedDates
import TwinStore.Proofs.SavedDecimals
import TwinStore.Proofs.CleanFilters
import TwinStore.Proofs.EpochMillis
import TwinStore.Proofs.ReorderedFilters
import TwinStore.Proofs.WrittenInstants
import TwinStore.Proofs.RegisteredBatches
import TwinStore.Proofs.RelationGraph
import TwinStore.Proofs.PrintedDocuments
import TwinStore.Proofs.JournalLines
import TwinStore.Proofs.FollowedRecords
import TwinStore.Proofs.ReportedDeletion
import TwinStore.Proofs.Credentials
import TwinStore.Proofs.ClockTicks
import TwinStore.Proofs.UnreachedBranches
