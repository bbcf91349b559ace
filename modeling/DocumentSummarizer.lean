import DocumentSummarizer.Library.TransitionSystem
import DocumentSummarizer.Library.Fallible
import DocumentSummarizer.Pipeline.Rewind
import DocumentSummarizer.Pipeline.Concurrency
import DocumentSummarizer.Pipeline.StoreHistory
import DocumentSummarizer.Pipeline.CorrectionHistory
import DocumentSummarizer.Pipeline.Partition
import DocumentSummarizer.Pipeline.GatewayRuns
import DocumentSummarizer.Pipeline.VerdictResponse
import DocumentSummarizer.Pipeline.ContractPresentation
import DocumentSummarizer.Pipeline.ClauseFaithfulness
import DocumentSummarizer.Pipeline.DeliveryRefusal
import DocumentSummarizer.Pipeline.VerificationPlan
import DocumentSummarizer.Pipeline.StoreSafety
import DocumentSummarizer.Pipeline.Reconciliation
import DocumentSummarizer.Coherent.NumericSupport
import DocumentSummarizer.Coherent.SplitRepairs
import DocumentSummarizer.Coherent.OutputAdmission
import DocumentSummarizer.Coherent.TrimSafety
import DocumentSummarizer.Coherent.WeakenedVerdicts
import DocumentSummarizer.Coherent.CardinalReadings
import DocumentSummarizer.Coherent.AmountReadings
import DocumentSummarizer.Coherent.SegmentFraming
import DocumentSummarizer.Coherent.SelectionTournament
import DocumentSummarizer.Pipeline.KeyPointRanking
import DocumentSummarizer.Pipeline.PageOmission
import DocumentSummarizer.Pipeline.DecoderProjection
import DocumentSummarizer.Pipeline.ProfilePrompt
import DocumentSummarizer.Pipeline.ChatGeneration
import DocumentSummarizer.Connect.AdmissionSafety
import DocumentSummarizer.Connect.PackageHistory
import DocumentSummarizer.Connect.PurgeHistory
import DocumentSummarizer.Connect.QuiesceCodec
import DocumentSummarizer.Connect.TransitionSafety
import DocumentSummarizer.Connect.JobAdmission
import DocumentSummarizer.Connect.DeliveryCoverage
import DocumentSummarizer.Ocr.Nesting
import DocumentSummarizer.Ocr.CompletionRuns
