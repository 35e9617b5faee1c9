import ResumableUpload.Main
import ResumableUpload.Progress.Throughput
import ResumableUpload.Progress.Tracker
import ResumableUpload.Proofs.Bytes.Base64
import ResumableUpload.Proofs.Bytes.RollingDigest
import ResumableUpload.Proofs.Client.Exchanges
import ResumableUpload.Proofs.Program.Histories
import ResumableUpload.Proofs.Transfer.Chunks
import ResumableUpload.Proofs.Transfer.Course
import ResumableUpload.Proofs.Transfer.Committing
import ResumableUpload.Proofs.Transfer.FreshResume
import ResumableUpload.Proofs.Transfer.GivenUp
import ResumableUpload.Proofs.Transfer.Hashing
import ResumableUpload.Proofs.Transfer.Honest
import ResumableUpload.Proofs.Transfer.InStep
import ResumableUpload.Proofs.Transfer.Interrupted
import ResumableUpload.Proofs.Transfer.Kept
import ResumableUpload.Proofs.Transfer.Layout
import ResumableUpload.Proofs.Transfer.Listing
import ResumableUpload.Proofs.Transfer.Lost
import ResumableUpload.Proofs.Transfer.Persistence
import ResumableUpload.Proofs.Transfer.Provenance
import ResumableUpload.Proofs.Transfer.Rounds
import ResumableUpload.Proofs.Transfer.Search
import ResumableUpload.Proofs.Transfer.Sending
import ResumableUpload.Proofs.Transfer.Sound
import ResumableUpload.Proofs.Transfer.Stream
import ResumableUpload.Proofs.Transfer.Survival
import ResumableUpload.Rehearsal.Session
import ResumableUpload.Rehearsal.Stage
import ResumableUpload.Proofs.Client.Advance
import ResumableUpload.Proofs.Client.Pages
import ResumableUpload.Proofs.Client.Walk
import ResumableUpload.Proofs.Client.Calls
import ResumableUpload.Proofs.Client.Requests
import ResumableUpload.Proofs.Http.Addresses
import ResumableUpload.Proofs.Command.Endings
import ResumableUpload.Proofs.Transfer.Agreement
import ResumableUpload.Proofs.Transfer.ListingOrder
import ResumableUpload.Proofs.Json.Grammar
import ResumableUpload.Proofs.Json.Numerals
import ResumableUpload.Proofs.Json.Strings
import ResumableUpload.Proofs.Json.Skipping
import ResumableUpload.Proofs.Json.Meaning
import ResumableUpload.Proofs.Json.Codecs
import ResumableUpload.Proofs.Json.Records
import ResumableUpload.Proofs.Json.Likeness
import ResumableUpload.Proofs.Json.Lossless
import ResumableUpload.Proofs.Json.Yields
import ResumableUpload.Proofs.Json.FreeForm
import ResumableUpload.Proofs.Json.Canonical
import ResumableUpload.Proofs.Time.Rfc3339
import ResumableUpload.Proofs.Wire.Shapes
import ResumableUpload.Proofs.Wire.RoundTrip
import ResumableUpload.Proofs.Wire.Commit
import ResumableUpload.Proofs.Json.Objects
import ResumableUpload.Proofs.Wire.Objects
import ResumableUpload.Proofs.Text.Numbers
import ResumableUpload.Proofs.Transfer.ChunkLength
import ResumableUpload.Proofs.Transfer.Reporting
import ResumableUpload.Proofs.Transfer.Retrying
import ResumableUpload.Proofs.Client.CommitReply
import ResumableUpload.Proofs.Progress.Log
import ResumableUpload.Proofs.Transfer.CutOff
import ResumableUpload.Proofs.Client.FailedListing
import ResumableUpload.Proofs.Json.Lists
import ResumableUpload.Proofs.Client.Refusals
import ResumableUpload.Proofs.Transfer.LongestRun
import ResumableUpload.Proofs.Transfer.Bounds
import ResumableUpload.Proofs.Decimal.Doubles
import ResumableUpload.Proofs.Progress.Window
