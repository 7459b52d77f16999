import PushDispatch.Dispatch.Script
import PushDispatch.Main
import PushDispatch.Message.Json
import PushDispatch.Proofs.Dispatch.Concurrency
import PushDispatch.Proofs.Fcm.Posts
import PushDispatch.Proofs.Fcm.Complaints
import PushDispatch.Proofs.Fcm.Refusals
import PushDispatch.Proofs.TextMap
import PushDispatch.Proofs.Json.RoundTrip
import PushDispatch.Proofs.Dispatch.Greedy
import PushDispatch.Proofs.Dispatch.Pace
import PushDispatch.Proofs.Dispatch.Timeline
import PushDispatch.Proofs.Dispatch.Timing
import PushDispatch.Proofs.Program.Run
import PushDispatch.Proofs.Fcm.Requests
import PushDispatch.Proofs.Fcm.Bodies
import PushDispatch.Proofs.Json.Documents
import PushDispatch.Proofs.Url.Extension
import PushDispatch.Proofs.Fcm.SendUrl
import PushDispatch.Proofs.Dispatch.Attempts
import PushDispatch.Proofs.Settings.Requirements
import PushDispatch.Proofs.Program.Limits
import PushDispatch.Proofs.Program.Targets
import PushDispatch.Proofs.Program.Credentials
import PushDispatch.Proofs.Settings.References
import PushDispatch.Proofs.Fcm.ErrorCodes
import PushDispatch.Proofs.Fcm.RetryAfter
import PushDispatch.Proofs.Environment.Pass
import PushDispatch.Proofs.Dispatch.Backoff
import PushDispatch.Proofs.Toml.Apart
import PushDispatch.Proofs.Toml.Scanning
import PushDispatch.Proofs.Settings.TokenLine
import PushDispatch.Proofs.Calendar.Date
import PushDispatch.Proofs.Calendar.Stamp
import PushDispatch.Proofs.Calendar.Sorting
import PushDispatch.Proofs.CommandLine.Entries
import PushDispatch.Proofs.Dispatch.Events
