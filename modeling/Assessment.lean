import Assessment.Main
import Assessment.Record.Codec
import Assessment.Record.Json
import Assessment.Record.Question
import Assessment.Usage.Display
import Assessment.Usage.Flag
import Assessment.Proofs.Attempt.Coherent
import Assessment.Proofs.Attempt.Faithful
import Assessment.Proofs.Attempt.Finish
import Assessment.Proofs.Attempt.Range
import Assessment.Proofs.Attempt.Repeat
import Assessment.Proofs.Attempt.Replay
import Assessment.Proofs.Attempt.Tries
import Assessment.Proofs.Store.Apart
import Assessment.Proofs.Store.Apply
import Assessment.Proofs.Store.Handle
import Assessment.Proofs.Store.Remark
import Assessment.Proofs.Store.Rollback
import Assessment.Proofs.Usage.Batch
import Assessment.Proofs.Usage.Form
import Assessment.Proofs.Usage.Post
import Assessment.Proofs.Usage.Regrade
import Assessment.Proofs.Store.Outline
import Assessment.Proofs.Store.Intact
import Assessment.Proofs.Store.Exclusive
import Assessment.Proofs.Usage.Prolonged
import Assessment.Proofs.Store.Copy
import Assessment.Proofs.Store.Race
import Assessment.Proofs.Store.Overlap
import Assessment.Proofs.Store.Place
import Assessment.Proofs.Store.Structure
import Assessment.Proofs.Store.Renewal
import Assessment.Proofs.Store.Reread
import Assessment.Proofs.Store.Report
import Assessment.Proofs.Store.Alike
import Assessment.Proofs.Store.Turns
import Assessment.Proofs.Store.Batching
import Assessment.Proofs.Text.Script
import Assessment.Proofs.Usage.Listed
import Assessment.Proofs.Attempt.Retry
import Assessment.Proofs.Attempt.Hints
import Assessment.Proofs.Attempt.Resubmission
import Assessment.Proofs.Attempt.LastResponse
import Assessment.Proofs.Attempt.Resumption
import Assessment.Proofs.Attempt.RightResponse
import Assessment.Proofs.Store.Marks
import Assessment.Proofs.Number.Reading
import Assessment.Proofs.Attempt.Grading
import Assessment.Proofs.Store.Assemble
import Assessment.Proofs.Store.Missing
import Assessment.Proofs.Number.Numeral
import Assessment.Proofs.Usage.Discovery
import Assessment.Proofs.Digest.Hex
import Assessment.Proofs.Usage.Flag
import Assessment.Proofs.Number.Lossless
import Assessment.Proofs.Record.Field
import Assessment.Proofs.Record.Row
import Assessment.Proofs.Record.Question
import Assessment.Proofs.Record.RoundTrip
import Assessment.Proofs.Number.Integer
import Assessment.Proofs.Text.Normal
import Assessment.Proofs.Store.Pending
