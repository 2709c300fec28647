import Chronicle.Workspace.Step
import Chronicle.Query.Predicate
import Chronicle.TimeStamp.Text
import Chronicle.Proofs.Fallible
import Chronicle.Proofs.Store.Acceptance
import Chronicle.Proofs.Store.Writes
import Chronicle.Proofs.Store.Safety
import Chronicle.Proofs.Store.Live
import Chronicle.Proofs.Sessions.Coherence
import Chronicle.Proofs.Sessions.Concurrency
import Chronicle.Proofs.Query.Reversal
import Chronicle.Proofs.Sessions.Reloading
import Chronicle.Proofs.Sessions.Projections
import Chronicle.Proofs.Query.Modification
import Chronicle.Proofs.Query.Matching
import Chronicle.Proofs.Envelope.Unpacking
import Chronicle.Proofs.Store.Retention
import Chronicle.Proofs.Sessions.Erasure
import Chronicle.Proofs.Sessions.FirstLoading
import Chronicle.Proofs.Sessions.Collecting
import Chronicle.Proofs.Store.Footprint
import Chronicle.Proofs.Store.Independence
import Chronicle.Proofs.Store.Consistency
import Chronicle.Proofs.Query.Identifiers
import Chronicle.Proofs.Query.Facets
import Chronicle.Proofs.Query.Backwards
import Chronicle.Proofs.Query.Newer
import Chronicle.Proofs.Query.Selecting
import Chronicle.Proofs.Envelope.Resolution
import Chronicle.Proofs.Json.Contents
import Chronicle.Proofs.Json.Lexing
import Chronicle.Proofs.Text.Utf8
import Chronicle.Proofs.Envelope.Serializing
import Chronicle.Proofs.Json.Records
import Chronicle.Proofs.Envelope.RoundTrip
import Chronicle.Proofs.Sessions.Converging
