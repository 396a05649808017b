import Groundlane.Arena.OneVote
import Groundlane.ArtifactLifecycle.Forward
import Groundlane.Artifacts.Enumeration
import Groundlane.Artifacts.Put
import Groundlane.Cache.Payload
import Groundlane.Canonical.Lossless
import Groundlane.Canonical.OutputBounds
import Groundlane.Chunks.Provenance
import Groundlane.Corpora.Search
import Groundlane.Credentials.Lineage
import Groundlane.Credentials.Listing
import Groundlane.D1.ExpiryPages
import Groundlane.Dispatch.Wakeups
import Groundlane.DocumentJobs.ExecutesOnce
import Groundlane.DocumentJobs.Monotone
import Groundlane.Documents.CompareBlocks
import Groundlane.Documents.TableOfContents
import Groundlane.Durable.Journal
import Groundlane.Email.Limits
import Groundlane.Email.TransferEncoding
import Groundlane.Extraction.Output
import Groundlane.Fetch.PaidCalls
import Groundlane.Fetchers.Embedded
import Groundlane.Fetchers.Hops
import Groundlane.Internal.Binding
import Groundlane.Jobs.AsyncFacts
import Groundlane.Jobs.CrawlPages
import Groundlane.Limits.Permits
import Groundlane.MemoryCorpora.Bindings
import Groundlane.Pages.Refusals
import Groundlane.Parser.Xlsx
import Groundlane.Pdf.Reconstruction
import Groundlane.Search.Breaker
import Groundlane.Search.Cancellation
import Groundlane.Search.WellFormed
import Groundlane.Snapshots.Retention
import Groundlane.Sources.ActiveMarkup
import Groundlane.Sources.WholeSection
import Groundlane.Tasks.InFlight
import Groundlane.Tasks.Polling
import Groundlane.UploadFlow.Truthful
import Groundlane.Uploads.Deletion
